import ElectrumClink.Publish.Model

/-!
# The futures of the publishes

Publishes run concurrently and share the `event_adds` of the relay objects. In whatever order their
steps and the messages of the relays come, each entry of `event_adds` belongs to one publish that is
under way, and none stays behind (`eventAdds_get?_iff`).

`FuturesInv` ties the children of the calls to the waiters of the table; each kind of step keeps it.
-/

namespace ElectrumClink

/-- The future that a child has registered, whether or not it still holds it. -/
def PublishStage.future : PublishStage → Option ℕ
  | .scheduled => none
  | .sending f | .waiting f | .returned f _ => some f
  | .cancelled f => f

/-- A child that holds its future is not over, and has registered it. -/
theorem PublishStage.held_eq_some_iff {stage : PublishStage} {f : ℕ} :
    stage.held = some f ↔ stage.future = some f ∧ ¬ stage.IsOver := by
  cases stage <;> simp [held, future, IsOver]

variable {py : JsonBuiltins} {s t : Publishing} {c c' i i' f f' : ℕ} {call : PublishCall}
  {eventId eventId' : EventId} {relay relay' : RelayId} {stage stage' stage'' : PublishStage}

namespace Publishing

/-- Child `i` of call `c` publishes this event to this relay and is at this stage. -/
def At (s : Publishing) (c i : ℕ) (eventId : EventId) (relay : RelayId) (stage : PublishStage) :
    Prop :=
  ∃ call, s.calls[c]? = some call ∧ call.eventId = eventId ∧
    call.children[i]? = some (relay, stage)

theorem child?_eq_some_iff : s.child? c i = some (call, relay, stage) ↔
    s.calls[c]? = some call ∧ call.children[i]? = some (relay, stage) := by
  simp [child?, Option.bind_eq_some_iff, Option.map_eq_some_iff]

/-- A child is at one stage. -/
theorem At.unique (h : s.At c i eventId relay stage) (h' : s.At c i eventId' relay' stage') :
    eventId = eventId' ∧ relay = relay' ∧ stage = stage' := by
  obtain ⟨call, hcall, rfl, hchild⟩ := h
  obtain ⟨call', hcall', rfl, hchild'⟩ := h'
  obtain rfl := Option.some.inj (hcall.symm.trans hcall')
  cases hchild.symm.trans hchild'
  exact ⟨rfl, rfl, rfl⟩

/-- The children after one of them got on. -/
theorem at_setStage (hcall : s.calls[c]? = some call)
    (hchild : call.children[i]? = some (relay, stage)) :
    (s.setStage c i call relay stage').At c' i' eventId' relay' stage'' ↔
      (c' = c ∧ i' = i) ∧ eventId' = call.eventId ∧ relay' = relay ∧ stage'' = stage' ∨
        ¬ (c' = c ∧ i' = i) ∧ s.At c' i' eventId' relay' stage'' := by
  have hcalls : ∀ x, (s.setStage c i call relay stage').calls[c']? = some x ↔
      c' = c ∧ x = call.setChild i relay stage' ∨ c' ≠ c ∧ s.calls[c']? = some x :=
    fun _ => GrowingList.getElem?_set_iff hcall
  have hchildren : ∀ x, (call.setChild i relay stage').children[i']? = some x ↔
      i' = i ∧ x = (relay, stage') ∨ i' ≠ i ∧ call.children[i']? = some x :=
    fun _ => GrowingList.getElem?_set_iff hchild
  constructor
  · rintro ⟨x, hx, rfl, hget⟩
    rcases (hcalls x).1 hx with ⟨rfl, rfl⟩ | ⟨hne, hx⟩
    · rcases (hchildren _).1 hget with ⟨rfl, heq⟩ | ⟨hne, hget⟩
      · cases heq
        exact .inl ⟨⟨rfl, rfl⟩, rfl, rfl, rfl⟩
      · exact .inr ⟨fun h => hne h.2, call, hcall, rfl, hget⟩
    · exact .inr ⟨fun h => hne h.1, x, hx, rfl, hget⟩
  · rintro (⟨⟨rfl, rfl⟩, rfl, rfl, rfl⟩ | ⟨hne, x, hx, rfl, hget⟩)
    · exact ⟨_, (hcalls _).2 (.inl ⟨rfl, rfl⟩), rfl, (hchildren _).2 (.inl ⟨rfl, rfl⟩)⟩
    · by_cases hc : c' = c
      · subst hc
        obtain rfl := Option.some.inj (hcall.symm.trans hx)
        refine ⟨_, (hcalls _).2 (.inl ⟨rfl, rfl⟩), rfl, (hchildren _).2 (.inr ⟨?_, hget⟩)⟩
        exact fun hi => hne ⟨rfl, hi⟩
      · exact ⟨x, (hcalls _).2 (.inr ⟨hc, hx⟩), rfl, hget⟩

/-- One child goes from one stage to the next, and nothing else happens to the children. -/
structure Moves (s t : Publishing) (c i : ℕ) (eventId : EventId) (relay : RelayId)
    (stage stage' : PublishStage) : Prop where
  before : s.At c i eventId relay stage
  at_iff : ∀ c' i' eventId' relay' stage'', t.At c' i' eventId' relay' stage'' ↔
    (c' = c ∧ i' = i) ∧ eventId' = eventId ∧ relay' = relay ∧ stage'' = stage' ∨
      ¬ (c' = c ∧ i' = i) ∧ s.At c' i' eventId' relay' stage''

/-- What a step can do to the children and the futures. -/
inductive Effect (py : JsonBuiltins) (s t : Publishing) : Prop
  /-- At most new children come. -/
  | quiet (hfutures : t.futures = s.futures)
      (hat : ∀ c i eventId relay stage, t.At c i eventId relay stage →
        s.At c i eventId relay stage ∨ stage = .scheduled)
      (hkeep : ∀ c i eventId relay stage, s.At c i eventId relay stage →
        t.At c i eventId relay stage)
  | said (k : RelayId × EventId) (message : RelayMessage)
      (hfutures : t.futures = s.futures.say k message)
      (hat : ∀ c i eventId relay stage, t.At c i eventId relay stage ↔
        s.At c i eventId relay stage)
  | started (c i : ℕ) (eventId : EventId) (relay : RelayId)
      (hfutures : t.futures = s.futures.register (relay, eventId))
      (hmoves : Moves s t c i eventId relay .scheduled (.sending s.futures.waiters.length))
  | sent (c i : ℕ) (eventId : EventId) (relay : RelayId) (f : ℕ)
      (hfutures : t.futures = s.futures)
      (hmoves : Moves s t c i eventId relay (.sending f) (.waiting f))
  | ended (c i : ℕ) (eventId : EventId) (relay : RelayId) (f : ℕ) (stage stage' : PublishStage)
      (hfutures : t.futures = s.futures.leave f)
      (hmoves : Moves s t c i eventId relay stage stage')
      (hheld : stage.held = some f) (hover : stage'.IsOver) (hfuture : stage'.future = some f)
      (hverdict : ∀ verdict, stage'.verdict = some verdict →
        (∃ repr, verdict = (none, repr) ∧ step py s (.trouble c i repr) = some t) ∨
        ∃ x message, s.futures.waiters[f]? = some x ∧ x.answer = some message ∧
          verdict = relayVerdict py message)
  | dropped (c i : ℕ) (eventId : EventId) (relay : RelayId)
      (hfutures : t.futures = s.futures)
      (hmoves : Moves s t c i eventId relay .scheduled (.cancelled none))

/-- Replacing a call by one with the same event and children does nothing to the children. -/
theorem effect_set_call (hcall : s.calls[c]? = some call) (call' : PublishCall)
    (hid : call'.eventId = call.eventId) (hchildren : call'.children = call.children) :
    Effect py s { s with calls := s.calls.set c call' } := by
  have hcalls : ∀ c' x, (s.calls.set c call')[c']? = some x ↔
      c' = c ∧ x = call' ∨ c' ≠ c ∧ s.calls[c']? = some x :=
    fun _ _ => GrowingList.getElem?_set_iff hcall
  refine .quiet rfl (fun c' i eventId relay stage hat => .inl ?_)
    fun c' i eventId relay stage hat => ?_
  · obtain ⟨x, hx, rfl, hget⟩ := hat
    rcases (hcalls c' x).1 hx with ⟨rfl, rfl⟩ | ⟨-, hx⟩
    · exact ⟨call, hcall, hid.symm, hchildren ▸ hget⟩
    · exact ⟨x, hx, rfl, hget⟩
  · obtain ⟨x, hx, rfl, hget⟩ := hat
    by_cases hc : c' = c
    · subst hc
      obtain rfl := Option.some.inj (hcall.symm.trans hx)
      exact ⟨call', (hcalls _ _).2 (.inl ⟨rfl, rfl⟩), hid, hchildren.symm ▸ hget⟩
    · exact ⟨x, (hcalls _ x).2 (.inr ⟨hc, hx⟩), rfl, hget⟩

/-- The children of a new call have not started. -/
theorem at_create (h : At { s with calls := s.calls ++ [.create eventId relays] } c i eventId' relay
      stage) : s.At c i eventId' relay stage ∨ stage = .scheduled := by
  obtain ⟨x, hx, rfl, hget⟩ := h
  rcases GrowingList.getElem?_concat_iff.1 hx with hx | ⟨-, rfl⟩
  · exact .inl ⟨x, hx, rfl, hget⟩
  · refine .inr ?_
    unfold PublishCall.create at hget
    split at hget
    next => cases hget
    split at hget
    next =>
      obtain ⟨r, -, heq⟩ := Option.map_eq_some_iff.1 (List.getElem?_map.symm.trans hget)
      cases heq
      rfl
    next => cases hget

/-- The effect of a step. -/
theorem step_effect {a : PublishAction} (h : step py s a = some t) : Effect py s t := by
  -- most steps move one child and do something to the futures
  have hmoves : ∀ {c i call relay stage} (stage' : PublishStage) (futures),
      s.child? c i = some (call, relay, stage) →
      Moves s { s.setStage c i call relay stage' with futures := futures } c i call.eventId relay
        stage stage' := by
    intro c i call relay stage stage' futures hchild
    obtain ⟨hcall, hchild⟩ := child?_eq_some_iff.1 hchild
    exact ⟨⟨call, hcall, rfl, hchild⟩, fun _ _ _ _ _ => at_setStage hcall hchild⟩
  cases a with
  | call eventId relays =>
    obtain rfl := Option.some.inj h
    refine .quiet rfl (fun _ _ _ _ _ => at_create) fun c i eventId' relay stage hat => ?_
    obtain ⟨x, hx, hid, hget⟩ := hat
    exact ⟨x, GrowingList.getElem?_concat_iff.2 (.inl hx), hid, hget⟩
  | start c i =>
    obtain ⟨⟨call, relay, stage⟩, hchild, h⟩ := Option.bind_eq_some_iff.1 h
    obtain ⟨rfl, heq⟩ := Option.ite_none_right_eq_some.1 h
    obtain rfl := Option.some.inj heq
    exact .started c i call.eventId relay rfl (hmoves _ _ hchild)
  | sent c i =>
    obtain ⟨⟨call, relay, stage⟩, hchild, h⟩ := Option.bind_eq_some_iff.1 h
    cases stage with
    | sending f =>
      obtain rfl := Option.some.inj h
      exact .sent c i call.eventId relay f rfl (hmoves (.waiting f) s.futures hchild)
    | _ => cases h
  | ok relay eventId message =>
    obtain rfl := Option.some.inj h
    exact .said (relay, eventId) message rfl fun _ _ _ _ _ => Iff.rfl
  | wake c i =>
    obtain ⟨⟨call, relay, stage⟩, hchild, h⟩ := Option.bind_eq_some_iff.1 h
    cases stage with
    | waiting f =>
      obtain ⟨message, hmessage, rfl⟩ := Option.map_eq_some_iff.1 h
      obtain ⟨x, hx, hanswer⟩ := Option.bind_eq_some_iff.1 hmessage
      refine .ended c i call.eventId relay f _ _ rfl (hmoves _ _ hchild) rfl trivial rfl ?_
      rintro _ ⟨⟩
      exact .inr ⟨x, message, hx, hanswer, rfl⟩
    | _ => cases h
  | trouble c i repr =>
    have htrouble := h
    obtain ⟨⟨call, relay, stage⟩, hchild, h⟩ := Option.bind_eq_some_iff.1 h
    obtain ⟨f, hheld, rfl⟩ := Option.map_eq_some_iff.1 h
    -- the `finally` takes the future out of the table
    refine .ended c i call.eventId relay f _ _ rfl (hmoves _ _ hchild) hheld trivial rfl ?_
    rintro _ ⟨⟩
    exact .inl ⟨repr, rfl, htrouble⟩
  | cancel c =>
    obtain ⟨call, hcall, h⟩ := Option.bind_eq_some_iff.1 h
    obtain ⟨-, heq⟩ := Option.ite_none_right_eq_some.1 h
    obtain rfl := Option.some.inj heq
    exact effect_set_call hcall { call with cancelling := true } rfl rfl
  | cancelChild c i =>
    obtain ⟨⟨call, relay, stage⟩, hchild, h⟩ := Option.bind_eq_some_iff.1 h
    obtain ⟨⟨-, hover⟩, heq⟩ := Option.ite_none_right_eq_some.1 h
    split at heq
    next f hheld =>
      obtain rfl := Option.some.inj heq
      refine .ended c i call.eventId relay f _ _ rfl (hmoves _ _ hchild) hheld trivial rfl ?_
      rintro _ ⟨⟩
    next hheld =>
      obtain rfl := Option.some.inj heq
      -- a child that holds no future has not started
      have hscheduled : stage = .scheduled := by
        cases stage with
        | scheduled => rfl
        | sending f => cases hheld
        | waiting f => cases hheld
        | returned f verdict => exact absurd trivial hover
        | cancelled f => exact absurd trivial hover
      subst hscheduled
      exact .dropped c i call.eventId relay rfl (hmoves (.cancelled none) s.futures hchild)
  | finish c =>
    obtain ⟨call, hcall, h⟩ := Option.bind_eq_some_iff.1 h
    obtain ⟨-, heq⟩ := Option.ite_none_right_eq_some.1 h
    obtain ⟨outcome, -, rfl⟩ := Option.map_eq_some_iff.1 heq
    exact effect_set_call hcall { call with outcome := some outcome } rfl rfl
  | finishStock c outcome =>
    obtain ⟨call, hcall, h⟩ := Option.bind_eq_some_iff.1 h
    obtain ⟨-, heq⟩ := Option.ite_none_right_eq_some.1 h
    obtain rfl := Option.some.inj heq
    exact effect_set_call hcall { call with outcome := some outcome } rfl rfl

/-! ## The children and their futures -/

/-- Each child that has started has a future of its own, under the key of its relay and event, and
has left it when it is over; what it made of an `OK` is what its future holds. -/
structure FuturesInv (py : JsonBuiltins) (s : Publishing) : Prop where
  rendezvous : s.futures.Inv
  registered : ∀ c i eventId relay stage f, s.At c i eventId relay stage →
    PublishStage.future stage = some f → ∃ x, s.futures.waiters[f]? = some x ∧
      x.key = (relay, eventId) ∧ (x.left = true ↔ stage.IsOver)
  unique : ∀ c i eventId relay stage c' i' eventId' relay' stage' f,
    s.At c i eventId relay stage → s.At c' i' eventId' relay' stage' →
      PublishStage.future stage = some f → PublishStage.future stage' = some f → c' = c ∧ i' = i
  owner : ∀ f x, s.futures.waiters[f]? = some x →
    ∃ c i eventId relay stage, s.At c i eventId relay stage ∧ stage.future = some f
  verdict : ∀ c i eventId relay stage f verdict, s.At c i eventId relay stage →
    PublishStage.future stage = some f → PublishStage.verdict stage = some verdict →
      verdict.1 = none ∨ ∃ x message, s.futures.waiters[f]? = some x ∧
        x.answer = some message ∧ verdict = relayVerdict py message

theorem futuresInv_init : FuturesInv py init := by
  have hat : ∀ c i eventId relay stage, ¬ At init c i eventId relay stage := by
    rintro c i eventId relay stage ⟨call, ⟨⟩, -⟩
  refine ⟨Rendezvous.inv_init, ?_, ?_, ?_, ?_⟩
  · exact fun c i eventId relay stage f h => absurd h (hat _ _ _ _ _)
  · exact fun c i eventId relay stage _ _ _ _ _ _ h => absurd h (hat _ _ _ _ _)
  · rintro f x ⟨⟩
  · exact fun c i eventId relay stage f _ h => absurd h (hat _ _ _ _ _)

/-- The invariant is kept when the futures only get on, and the children with them. -/
theorem FuturesInv.transport (hinv : FuturesInv py s) (hrendezvous : t.futures.Inv)
    (hback : ∀ c i eventId relay stage' f, t.At c i eventId relay stage' →
      stage'.future = some f → ∃ stage, s.At c i eventId relay stage ∧ stage.future = some f ∧
        ∀ x, s.futures.waiters[f]? = some x → (x.left = true ↔ stage.IsOver) →
          ∃ x', t.futures.waiters[f]? = some x' ∧ x'.key = x.key ∧
            (x'.left = true ↔ stage'.IsOver) ∧ ∀ verdict, stage'.verdict = some verdict →
              verdict.1 = none ∨ ∃ message, x'.answer = some message ∧
                verdict = relayVerdict py message)
    (hforth : ∀ c i eventId relay stage f, s.At c i eventId relay stage →
      stage.future = some f → ∃ stage', t.At c i eventId relay stage' ∧ stage'.future = some f)
    (hwaiters : ∀ (f : ℕ) (x' : Waiter (RelayId × EventId) RelayMessage),
      t.futures.waiters[f]? = some x' → ∃ x, s.futures.waiters[f]? = some x) :
    FuturesInv py t := by
  constructor
  case rendezvous => exact hrendezvous
  case registered =>
    intro c i eventId relay stage' f hat hfuture
    obtain ⟨stage, hat, hfuture, hget⟩ := hback _ _ _ _ _ _ hat hfuture
    obtain ⟨x, hx, hkey, hleft⟩ := hinv.registered _ _ _ _ _ _ hat hfuture
    obtain ⟨x', hx', hkey', hleft', -⟩ := hget x hx hleft
    exact ⟨x', hx', hkey'.trans hkey, hleft'⟩
  case unique =>
    intro c i eventId relay stage c' i' eventId' relay' stage' f hat hat' hfuture hfuture'
    obtain ⟨_, hat, hfuture, -⟩ := hback _ _ _ _ _ _ hat hfuture
    obtain ⟨_, hat', hfuture', -⟩ := hback _ _ _ _ _ _ hat' hfuture'
    exact hinv.unique _ _ _ _ _ _ _ _ _ _ _ hat hat' hfuture hfuture'
  case owner =>
    intro f x' hx'
    obtain ⟨x, hx⟩ := hwaiters f x' hx'
    obtain ⟨c, i, eventId, relay, stage, hat, hfuture⟩ := hinv.owner f x hx
    obtain ⟨stage', hat', hfuture'⟩ := hforth _ _ _ _ _ _ hat hfuture
    exact ⟨c, i, eventId, relay, stage', hat', hfuture'⟩
  case verdict =>
    intro c i eventId relay stage' f verdict hat hfuture hverdict
    obtain ⟨stage, hat, hfuture, hget⟩ := hback _ _ _ _ _ _ hat hfuture
    obtain ⟨x, hx, -, hleft⟩ := hinv.registered _ _ _ _ _ _ hat hfuture
    obtain ⟨x', hx', -, -, hmade⟩ := hget x hx hleft
    rcases hmade verdict hverdict with hnone | ⟨message, hanswer, heq⟩
    · exact .inl hnone
    · exact .inr ⟨x', message, hx', hanswer, heq⟩

/-- What a child made of an `OK` is what its future still holds. -/
theorem FuturesInv.made (hinv : FuturesInv py s) {x x' : Waiter (RelayId × EventId) RelayMessage}
    (hat : s.At c i eventId relay stage) (hfuture : stage.future = some f)
    (hx : s.futures.waiters[f]? = some x)
    (hkept : ∀ message, x.answer = some message → x'.answer = some message)
    (verdict : RelayVerdict) (hverdict : stage.verdict = some verdict) :
    verdict.1 = none ∨ ∃ message, x'.answer = some message ∧ verdict = relayVerdict py message := by
  rcases hinv.verdict _ _ _ _ _ _ _ hat hfuture hverdict with hnone | ⟨y, message, hy, hanswer, heq⟩
  · exact .inl hnone
  · obtain rfl := Option.some.inj (hx.symm.trans hy)
    exact .inr ⟨message, hkept message hanswer, heq⟩

/-- A child moves, with the future it has, if any; the other futures stay as they are. -/
theorem FuturesInv.moves (hinv : FuturesInv py s) (hrendezvous : t.futures.Inv)
    (hmoves : Moves s t c i eventId relay stage stage') (hfuture : stage'.future = stage.future)
    (hwaiters : ∀ (f : ℕ) (x' : Waiter (RelayId × EventId) RelayMessage),
      t.futures.waiters[f]? = some x' ↔ ∃ x, s.futures.waiters[f]? = some x ∧
        x' = { x with left := x.left || decide (stage.future = some f ∧ stage'.IsOver) })
    (hover : stage.IsOver → stage'.IsOver)
    (hverdict : ∀ f verdict, stage'.future = some f → stage'.verdict = some verdict →
      verdict.1 = none ∨ ∃ x message, s.futures.waiters[f]? = some x ∧
        x.answer = some message ∧ verdict = relayVerdict py message) : FuturesInv py t := by
  refine hinv.transport hrendezvous ?_ ?_ fun f x' hx' => ?_
  · intro c' i' eventId' relay' stage'' f hat hfuture''
    rcases (hmoves.at_iff _ _ _ _ _).1 hat with ⟨⟨rfl, rfl⟩, rfl, rfl, rfl⟩ | ⟨hne, hat⟩
    · have hold : stage.future = some f := hfuture.symm.trans hfuture''
      refine ⟨stage, hmoves.before, hold, fun x hx hleft => ?_⟩
      refine ⟨_, (hwaiters f _).2 ⟨x, hx, rfl⟩, rfl, ?_, fun verdict hmade => ?_⟩
      · simp only [Bool.or_eq_true, hleft, hold, decide_eq_true_eq, true_and]
        exact ⟨fun h => h.elim hover id, .inr⟩
      · rcases hverdict f verdict hfuture'' hmade with hnone | ⟨y, message, hy, hanswer, heq⟩
        · exact .inl hnone
        · obtain rfl := Option.some.inj (hx.symm.trans hy)
          exact .inr ⟨message, hanswer, heq⟩
    · refine ⟨stage'', hat, hfuture'', fun x hx hleft => ?_⟩
      refine ⟨_, (hwaiters f _).2 ⟨x, hx, rfl⟩, rfl, ?_, hinv.made hat hfuture'' hx fun _ => id⟩
      -- another child has another future
      have hother : stage.future ≠ some f := fun hsame =>
        hne (hinv.unique _ _ _ _ _ _ _ _ _ _ _ hmoves.before hat hsame hfuture'')
      simpa [hother] using hleft
  · intro c' i' eventId' relay' stage'' f hat hfuture''
    by_cases hc : c' = c ∧ i' = i
    · obtain ⟨rfl, rfl⟩ := hc
      obtain ⟨rfl, rfl, rfl⟩ := hmoves.before.unique hat
      exact ⟨stage', (hmoves.at_iff _ _ _ _ _).2 (.inl ⟨⟨rfl, rfl⟩, rfl, rfl, rfl⟩),
        hfuture.trans hfuture''⟩
    · exact ⟨stage'', (hmoves.at_iff _ _ _ _ _).2 (.inr ⟨hc, hat⟩), hfuture''⟩
  · obtain ⟨x, hx, -⟩ := (hwaiters f x').1 hx'
    exact ⟨x, hx⟩

/-- A child starts, with a new future. -/
theorem FuturesInv.start (hinv : FuturesInv py s)
    (hfutures : t.futures = s.futures.register (relay, eventId))
    (hmoves : Moves s t c i eventId relay .scheduled (.sending s.futures.waiters.length)) :
    FuturesInv py t := by
  have hget : ∀ f x, t.futures.waiters[f]? = some x ↔ s.futures.waiters[f]? = some x ∨
      f = s.futures.waiters.length ∧
        x = ⟨(relay, eventId), s.futures.said.length, none, false⟩ := by
    intro f x
    rw [hfutures]
    exact Rendezvous.getElem?_register
  -- nobody has the future that is created next
  have hnew : ∀ c' i' eventId' relay' stage'', s.At c' i' eventId' relay' stage'' →
      stage''.future ≠ some s.futures.waiters.length := by
    intro c' i' eventId' relay' stage'' hat hfuture
    obtain ⟨x, hx, -⟩ := hinv.registered _ _ _ _ _ _ hat hfuture
    exact absurd (List.getElem?_eq_some_iff.1 hx).1 (lt_irrefl _)
  constructor
  case rendezvous =>
    rw [hfutures]
    exact hinv.rendezvous.register _
  case registered =>
    intro c' i' eventId' relay' stage'' f hat hfuture
    rcases (hmoves.at_iff _ _ _ _ _).1 hat with ⟨-, rfl, rfl, rfl⟩ | ⟨-, hat⟩
    · obtain rfl := Option.some.inj hfuture
      refine ⟨_, (hget _ _).2 (.inr ⟨rfl, rfl⟩), rfl, ?_⟩
      simp [PublishStage.IsOver]
    · obtain ⟨x, hx, hrest⟩ := hinv.registered _ _ _ _ _ _ hat hfuture
      exact ⟨x, (hget f x).2 (.inl hx), hrest⟩
  case unique =>
    intro c₁ i₁ eventId₁ relay₁ stage₁ c₂ i₂ eventId₂ relay₂ stage₂ f hat₁ hat₂ hfuture₁ hfuture₂
    rcases (hmoves.at_iff _ _ _ _ _).1 hat₁ with ⟨⟨rfl, rfl⟩, rfl, rfl, rfl⟩ | ⟨-, hat₁⟩ <;>
      rcases (hmoves.at_iff _ _ _ _ _).1 hat₂ with ⟨⟨rfl, rfl⟩, rfl, rfl, rfl⟩ | ⟨-, hat₂⟩
    · exact ⟨rfl, rfl⟩
    · exact absurd (hfuture₂.trans hfuture₁.symm) (hnew _ _ _ _ _ hat₂)
    · exact absurd (hfuture₁.trans hfuture₂.symm) (hnew _ _ _ _ _ hat₁)
    · exact hinv.unique _ _ _ _ _ _ _ _ _ _ _ hat₁ hat₂ hfuture₁ hfuture₂
  case owner =>
    intro f x hx
    rcases (hget f x).1 hx with hx | ⟨rfl, -⟩
    · obtain ⟨c', i', eventId', relay', stage'', hat, hfuture⟩ := hinv.owner f x hx
      refine ⟨c', i', eventId', relay', stage'', (hmoves.at_iff _ _ _ _ _).2 (.inr ⟨?_, hat⟩),
        hfuture⟩
      rintro ⟨rfl, rfl⟩
      obtain ⟨-, -, rfl⟩ := hmoves.before.unique hat
      cases hfuture
    · exact ⟨c, i, eventId, relay, _,
        (hmoves.at_iff _ _ _ _ _).2 (.inl ⟨⟨rfl, rfl⟩, rfl, rfl, rfl⟩), rfl⟩
  case verdict =>
    intro c' i' eventId' relay' stage'' f verdict hat hfuture hverdict
    rcases (hmoves.at_iff _ _ _ _ _).1 hat with ⟨-, rfl, rfl, rfl⟩ | ⟨-, hat⟩
    · cases hverdict
    · rcases hinv.verdict _ _ _ _ _ _ _ hat hfuture hverdict with hnone | ⟨x, message, hx, hrest⟩
      · exact .inl hnone
      · exact .inr ⟨x, message, (hget f x).2 (.inl hx), hrest⟩

/-- Every step keeps it. -/
theorem futuresInv_step {a : PublishAction} (hinv : FuturesInv py s) (h : step py s a = some t) :
    FuturesInv py t := by
  rcases step_effect h with ⟨hfutures, hat, hkeep⟩ | ⟨k, message, hfutures, hat⟩ |
    ⟨c, i, eventId, relay, hfutures, hmoves⟩ | ⟨c, i, eventId, relay, f, hfutures, hmoves⟩ |
    ⟨c, i, eventId, relay, f, stage, stage', hfutures, hmoves, hheld, hover, hfuture, hverdict⟩ |
    ⟨c, i, eventId, relay, hfutures, hmoves⟩
  case quiet =>
    -- the futures stay, and the children of a new call have none
    refine hinv.transport (hfutures ▸ hinv.rendezvous) ?_ ?_ fun f x' hx' => ⟨x', hfutures ▸ hx'⟩
    · intro c i eventId relay stage f hat' hfuture
      rcases hat _ _ _ _ _ hat' with hold | rfl
      · refine ⟨stage, hold, hfuture, fun x hx hleft => ⟨x, hfutures ▸ hx, rfl, hleft, ?_⟩⟩
        exact hinv.made hold hfuture hx fun _ => id
      · cases hfuture
    · exact fun c i eventId relay stage f hat' hfuture => ⟨stage, hkeep _ _ _ _ _ hat', hfuture⟩
  case said =>
    have hrendezvous : t.futures.Inv := by
      rw [hfutures]
      exact hinv.rendezvous.say k message
    -- what was answered before stays answered so
    refine hinv.transport hrendezvous ?_ ?_ fun f x' hx' => ?_
    · intro c i eventId relay stage f hat' hfuture
      refine ⟨stage, (hat _ _ _ _ _).1 hat', hfuture, fun x hx hleft => ?_⟩
      have hx' := (Rendezvous.getElem?_say (k := k) (v := message)).2 ⟨x, hx, rfl⟩
      rw [← hfutures] at hx'
      refine ⟨_, hx', rfl, hleft, ?_⟩
      refine hinv.made ((hat _ _ _ _ _).1 hat') hfuture hx fun message hanswer => ?_
      simp [hanswer]
    · exact fun c i eventId relay stage f hat' hfuture =>
        ⟨stage, (hat _ _ _ _ _).2 hat', hfuture⟩
    · rw [hfutures] at hx'
      obtain ⟨x, hx, -⟩ := Rendezvous.getElem?_say.1 hx'
      exact ⟨x, hx⟩
  case started => exact hinv.start hfutures hmoves
  case sent =>
    refine hinv.moves (hfutures ▸ hinv.rendezvous) hmoves rfl (fun f x' => ?_) id ?_
    · simp [hfutures, PublishStage.IsOver]
    · rintro f verdict - ⟨⟩
  case ended =>
    have hrendezvous : t.futures.Inv := by
      rw [hfutures]
      exact hinv.rendezvous.leave f
    obtain ⟨hold, -⟩ := PublishStage.held_eq_some_iff.1 hheld
    -- the child keeps its future, which leaves the table
    refine hinv.moves hrendezvous hmoves (hfuture.trans hold.symm) (fun f' x' => ?_)
      (fun _ => hover) fun f' verdict hf' hmade => ?_
    · rw [hfutures, Rendezvous.getElem?_leave]
      simp [hold, hover, eq_comm]
    · obtain rfl := Option.some.inj (hfuture.symm.trans hf')
      rcases hverdict verdict hmade with ⟨repr, rfl, -⟩ | hanswered
      · exact .inl rfl
      · exact .inr hanswered
  case dropped =>
    refine hinv.moves (hfutures ▸ hinv.rendezvous) hmoves rfl (fun f x' => ?_) (fun _ => trivial) ?_
    · simp [hfutures, PublishStage.future]
    · rintro f verdict - ⟨⟩

theorem futuresInv (hs : Reachable py s) : FuturesInv py s :=
  hs.invariant futuresInv_init fun _ _ _ hinv _ h => futuresInv_step hinv h

/-! ## The children that heard nothing -/

/-- The `send` of child `i` of call `c` raised, or its `wait_for` timed out. -/
def Failed (py : JsonBuiltins) (s : Publishing) (c i : ℕ) : Prop :=
  ∃ repr, Transition.Fired (step py) init (.trouble c i repr) s

end Publishing

/-! ## What is in `event_adds` -/

namespace Publishing

/-- The future that `event_adds` of a relay holds for an event is that of the publish under way that
registered it last; when every publish is over, all `event_adds` are empty. -/
theorem eventAdds_get?_iff (hs : Reachable py s) :
    (∀ relay eventId f, s.futures.table.get? (relay, eventId) = some f ↔
      (∃ c i stage, s.At c i eventId relay stage ∧ stage.held = some f) ∧
        ∀ c i stage f', s.At c i eventId relay stage → stage.future = some f' → f' ≤ f) ∧
    ((∀ c i eventId relay stage, s.At c i eventId relay stage → stage.IsOver) →
      s.futures.table = ∅) := by
  have hinv := futuresInv hs
  have hget : ∀ relay eventId f, s.futures.table.get? (relay, eventId) = some f ↔
      (∃ c i stage, s.At c i eventId relay stage ∧ stage.held = some f) ∧
        ∀ c i stage f', s.At c i eventId relay stage → stage.future = some f' → f' ≤ f := by
    intro relay eventId f
    rw [hinv.rendezvous.table_iff]
    constructor
    -- the waiter in the table belongs to a publish that is not over, and none registered later
    · rintro ⟨x, hx, hkey, hleft, hlatest⟩
      obtain ⟨c, i, eventId', relay', stage, hat, hfuture⟩ := hinv.owner f x hx
      obtain ⟨y, hy, hkey', hover⟩ := hinv.registered _ _ _ _ _ _ hat hfuture
      obtain rfl := Option.some.inj (hx.symm.trans hy)
      cases hkey.symm.trans hkey'
      refine ⟨⟨c, i, stage, hat, PublishStage.held_eq_some_iff.2 ⟨hfuture, ?_⟩⟩, ?_⟩
      · rw [← hover, hleft]
        exact Bool.false_ne_true
      · intro c' i' stage' f' hat' hfuture'
        obtain ⟨z, hz, hkey'', -⟩ := hinv.registered _ _ _ _ _ _ hat' hfuture'
        by_contra hlt
        exact hlatest f' z (not_le.1 hlt) hz (hkey''.trans hkey.symm)
    -- a later waiter under the key would be that of a later registration
    · rintro ⟨⟨c, i, stage, hat, hheld⟩, hlast⟩
      obtain ⟨hfuture, hover⟩ := PublishStage.held_eq_some_iff.1 hheld
      obtain ⟨x, hx, hkey, hleft⟩ := hinv.registered _ _ _ _ _ _ hat hfuture
      refine ⟨x, hx, hkey, ?_, fun f' y hlt hy hsame => ?_⟩
      · rw [← Bool.not_eq_true, hleft]
        exact hover
      · obtain ⟨c', i', eventId', relay', stage', hat', hfuture'⟩ := hinv.owner f' y hy
        obtain ⟨z, hz, hkey', -⟩ := hinv.registered _ _ _ _ _ _ hat' hfuture'
        obtain rfl := Option.some.inj (hy.symm.trans hz)
        cases hkey'.symm.trans (hsame.trans hkey)
        exact absurd (hlast c' i' stage' f' hat' hfuture') (not_le.2 hlt)
  refine ⟨hget, fun hover => ?_⟩
  refine Dict.ext (List.eq_nil_iff_forall_not_mem.2 fun ⟨⟨relay, eventId⟩, f⟩ hmem => ?_)
  obtain ⟨⟨c, i, stage, hat, hheld⟩, -⟩ := (hget relay eventId f).1 (Dict.get?_eq_some_iff.2 hmem)
  exact (PublishStage.held_eq_some_iff.1 hheld).2 (hover _ _ _ _ _ hat)

/-- A publish that awaits an `OK` after another of the same event has left. -/
theorem eventAdds_get?_iff_waiting :
    ∃ s, Reachable .sample s ∧
      (∀ relay eventId f, s.futures.table.get? (relay, eventId) = some f ↔
        (∃ c i stage, s.At c i eventId relay stage ∧ stage.held = some f) ∧
          ∀ c i stage f', s.At c i eventId relay stage → stage.future = some f' → f' ≤ f) ∧
      ((∀ c i eventId relay stage, s.At c i eventId relay stage → stage.IsOver) →
        s.futures.table = ∅) ∧
      s.futures.table.get? (0, "e") = some 1 := by
  have hexec : (Transition.exec (step .sample) init
      [.call "e" [(0, true)], .start 0 0, .call "e" [(0, true)], .start 1 0, .sent 1 0,
        .trouble 0 0 "ConnectionResetError()"]).any (fun s =>
      s.futures.table.get? (0, "e") == some 1) = true := by decide +kernel
  obtain ⟨s, hs, hat⟩ := Transition.exists_reachable_of_exec hexec
  obtain ⟨hget, hempty⟩ := eventAdds_get?_iff hs
  exact ⟨s, hs, hget, hempty, eq_of_beq hat⟩

end Publishing

end ElectrumClink
