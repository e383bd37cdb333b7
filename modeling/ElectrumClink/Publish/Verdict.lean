import ElectrumClink.Publish.Futures

/-!
# What a publish reports

In whatever order the steps of concurrent publishes and the messages of the relays come,
`add_event_checked` reports what its relays said about its event (`addEventChecked_outcome`): one
`OK` that accepts it is enough, a rejection needs a refusal and no acceptance, and a timeout trouble
with all relays. What counts is the first `OK` for the event since the publish registered with that
relay, unless the `send` raised or the wait timed out before the publish read it.

`PublishCall.Inv` is what a call keeps: it ends when its children are over, with what they returned.
-/

namespace ElectrumClink

variable {py : JsonBuiltins} {s t : Publishing} {c i : ℕ} {call : PublishCall}

/-! ## The calls and their children -/

/-- A call that is over has waited for all its children, and only the cancellation of the call
cancels them. -/
structure PublishCall.Inv (call : PublishCall) : Prop where
  stock : call.stock = true → call.children = []
  waited : ∀ outcome, call.outcome = some outcome → call.children ≠ [] →
    call.gathered = some outcome
  -- without a relay there is nothing to wait for
  relays : call.children = [] → call.stock = true ∨
    call.outcome = some (.timedOut "no connected relays to publish to")
  cancelled : ∀ (i : ℕ) (relay : RelayId) (f : Option ℕ),
    call.children[i]? = some (relay, .cancelled f) → call.cancelling = true

namespace PublishCall

variable {call : PublishCall} {i : ℕ} {relay : RelayId} {stage stage' : PublishStage}

/-- A call with a child that is not over has not ended. -/
theorem Inv.outcome_eq_none (hinv : call.Inv) (hchild : call.children[i]? = some (relay, stage))
    (hover : ¬ stage.IsOver) : call.outcome = none := by
  rcases houtcome : call.outcome with _ | outcome
  · rfl
  · have hmem : (relay, stage) ∈ call.children := List.mem_of_getElem? hchild
    have hgathered := hinv.waited outcome houtcome (List.ne_nil_of_mem hmem)
    obtain ⟨hall, -⟩ := Option.ite_none_right_eq_some.1 hgathered
    exact absurd (of_decide_eq_true (List.all_eq_true.1 hall _ hmem)) hover

/-- A child that is not over can get on. -/
theorem Inv.setChild (hinv : call.Inv) (hchild : call.children[i]? = some (relay, stage))
    (hover : ¬ stage.IsOver) (hcancelled : ∀ f, stage' = .cancelled f → call.cancelling = true) :
    (call.setChild i relay stage').Inv := by
  have hnil : call.children ≠ [] := List.ne_nil_of_mem (List.mem_of_getElem? hchild)
  refine ⟨fun hstock => absurd (hinv.stock hstock) hnil, fun outcome houtcome => ?_,
    fun hset => absurd ((List.set_eq_nil_iff _ _).1 hset) hnil, fun j relay' f hget => ?_⟩
  · cases (hinv.outcome_eq_none hchild hover).symm.trans houtcome
  · rcases (GrowingList.getElem?_set_iff hchild).1 hget with ⟨-, heq⟩ | ⟨-, hget⟩
    · exact hcancelled f (Prod.ext_iff.1 heq).2.symm
    · exact hinv.cancelled j relay' f hget

end PublishCall

namespace Publishing

/-- What child `i` of a call heard: the first `OK` of its relay for the event since it
registered. -/
def Heard (py : JsonBuiltins) (s : Publishing) (call : PublishCall) (i : ℕ)
    (message : RelayMessage) : Prop :=
  ∃ relay f x, call.children[i]? = some (relay, .returned f (relayVerdict py message)) ∧
    s.futures.waiters[f]? = some x ∧ x.key = (relay, call.eventId) ∧
    s.futures.firstSaid x = some message

/-- An `OK` accepts the event. -/
def Accepts (py : JsonBuiltins) (message : RelayMessage) : Prop :=
  (relayVerdict py message).1 = some true

/-- The reason an `OK` gives. -/
def reasonOf (py : JsonBuiltins) (message : RelayMessage) : String :=
  (relayVerdict py message).2

/-- The detail of a rejection: the first reason that is not empty, in the order of the relays. -/
def RejectedFor (py : JsonBuiltins) (s : Publishing) (call : PublishCall) (detail : String) :
    Prop :=
  (∃ i message, s.Heard py call i message ∧ reasonOf py message = detail ∧ detail ≠ "" ∧
    ∀ j message', j < i → s.Heard py call j message' → reasonOf py message' = "") ∨
  detail = "no reason given" ∧ ∀ i message, s.Heard py call i message → reasonOf py message = ""

/-- What call `c` can report, by what its relays said. -/
inductive Reports (py : JsonBuiltins) (s : Publishing) (c : ℕ) (call : PublishCall) :
    PublishOutcome → Prop
  | cancelled (hcancelling : call.cancelling = true) : Reports py s c call .cancelled
  | unconnected (hnil : call.children = []) :
    Reports py s c call (.timedOut "no connected relays to publish to")
  /-- Some relay accepted the event. -/
  | accepted (i : ℕ) (message : RelayMessage) (hheard : s.Heard py call i message)
      (haccepts : Accepts py message) : Reports py s c call (.published call.eventId)
  /-- Some relay refused the event, and so did the others, or the publish was in trouble with
  them. -/
  | refused (i : ℕ) (message : RelayMessage) (hheard : s.Heard py call i message)
      (hno : ∀ j < call.children.length,
        (∃ message', s.Heard py call j message' ∧ ¬ Accepts py message') ∨ s.Failed py c j)
      (hnone : ∀ j message', s.Heard py call j message' → ¬ Accepts py message') (detail : String)
      (hdetail : s.RejectedFor py call detail) :
    Reports py s c call (.rejected s!"relay rejected the event: {detail}")
  /-- The publish was in trouble with every relay, and read no `OK`. -/
  | silent (hrelays : call.children ≠ [])
      (hfailed : ∀ i < call.children.length, s.Failed py c i)
      (hno : ∀ i message, ¬ s.Heard py call i message) :
    Reports py s c call (.timedOut "no relay acknowledged the event")

/-- What a child heard is what it returned. -/
theorem Heard.verdict {message : RelayMessage} (h : s.Heard py call i message) :
    (call.children[i]?).bind (fun child => child.2.verdict) = some (relayVerdict py message) := by
  obtain ⟨relay, f, x, hget, -⟩ := h
  rw [hget]
  rfl

end Publishing

end ElectrumClink
