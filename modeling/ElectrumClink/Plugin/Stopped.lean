import ElectrumClink.Plugin.Model

/-!
# What a stopped server still does

`_stop_server` leaves the task that listens alone until the scheduled `close` has awaited the relay
manager, and neither `handle_requests` nor `_dispatch` asks whether the server was stopped: a
request that waits at that moment is still answered, and a server that is started meanwhile answers
it again (`stopped_server_answers`).

`stopped_server_is_silent` names what has to be ruled out: requests that wait at, or arrive for, a
stopped server, and requests that an earlier server of the wallet answered and a relay delivers
again, as long as they could still be accepted.
-/

namespace ElectrumClink

/-- The checks of `_dispatch` that depend on the event and the moment alone. -/
structure Answerable (env : Env) (now : Time) (event : Event) : Prop where
  kind : event.kind = clinkEventKind
  notOwn : event.pubkey ≠ env.pubkeyHex
  unexpired : env.isExpired event now = some false
  inWindow : InWindow now event.createdAt
  request : (ClinkServer.decryptRequest env event).isSome = true

/-- From now on, no server of this identity answers the event. -/
def Void (env : Env) (now : Time) (event : Event) : Prop :=
  ∀ t, now ≤ t → ¬ Answerable env t event

theorem Void.mono {env : Env} {now t : Time} {event : Event} (h : Void env now event)
    (hle : now ≤ t) : Void env t event :=
  fun u hu => h u (hle.trans hu)

/-- An event is answered only if it passes those checks. -/
theorem answerable_of_dispatch {env : Env} {calls : Calls} {now : Time} {event : Event}
    {s : ClinkServer} {reply : Reply} (h : (s.dispatch env calls now event).1 = some reply) :
    Answerable env now event := by
  have houtcome := ClinkServer.dispatch_outcome env calls now event s
  rcases hresult : s.dispatch env calls now event with ⟨result, s'⟩
  rw [hresult] at h houtcome
  obtain rfl : result = some reply := h
  rcases houtcome with _ | ⟨req, _, _, _, _, haccepts, _⟩ |
    ⟨req, _, _, _, _, _, haccepts, _, _, _⟩
  · exact ⟨haccepts.kind, haccepts.notOwn, haccepts.unexpired, haccepts.inWindow,
      Option.isSome_iff_exists.2 ⟨req, haccepts.request⟩⟩
  · exact ⟨haccepts.kind, haccepts.notOwn, haccepts.unexpired, haccepts.inWindow,
      Option.isSome_iff_exists.2 ⟨req, haccepts.request⟩⟩

namespace Plugin

variable {env : String → Env} {p p' : Plugin} {a : PluginAction}

/-! ## The claim about a run -/

/-- No stopped server issued an invoice, and no two servers of a wallet answered one request. -/
structure StopSafe (p : Plugin) : Prop where
  silent : ∀ a ∈ p.answers, a.stopped = true → ∀ bolt11, a.reply.payload ≠ .success bolt11
  oneServer : ∀ a ∈ p.answers, ∀ b ∈ p.answers, a.key = b.key → a.event.id = b.event.id →
    a.server = b.server

/-- The servers that an action stops. -/
def stoppedKeys (p : Plugin) : PluginAction → List String
  | .startPlugin wallet enabled _ => p.replacedKeys wallet enabled
  | .setWalletEnabled wallet enabled _ =>
    if enabled then p.replacedKeys wallet enabled else p.disabledKeys wallet
  | .closeWallet none => p.servers.keys
  | .closeWallet (some wallet) => p.closedKeys wallet
  | .onClose => p.servers.keys
  | _ => []

/-- No event that could still be answered waits at the server. -/
def Drained (env : String → Env) (p : Plugin) (i : ℕ) : Prop :=
  ∀ s events, p.processes[i]? = some s → s.manager = some events →
    ∀ event ∈ events, Void (env s.wallet.key) p.now event

/-- A delivery to a server that runs, of a request that no other server of the wallet answered; or
of an event that cannot be answered any more. -/
def DeliversNew (env : String → Env) (p : Plugin) (i : ℕ) (event : Event) : Prop :=
  ∀ s, p.processes[i]? = some s →
    (s.doStop = false ∧ ∀ a ∈ p.answers, a.key = s.wallet.key → a.event.id = event.id →
      a.server = i) ∨
    Void (env s.wallet.key) p.now event

/-- The step stops drained servers only, and delivers no request to a stopped server or for a second
time to another server. -/
structure Calm (env : String → Env) (p : Plugin) (a : PluginAction) : Prop where
  drained : ∀ key ∈ p.stoppedKeys a, ∀ i, p.servers.get? key = some i → p.Drained env i
  delivers : ∀ i event, a = .arrive i event → p.DeliversNew env i event

/-! ## The invariant -/

/-- A running server is the one of its wallet; what waits at a stopped server, or waits a second
time, cannot be answered. -/
structure StopInv (env : String → Env) (p : Plugin) : Prop where
  /-- A server that was not stopped is filed under its wallet. -/
  running : ∀ i s, p.processes[i]? = some s → s.doStop = false →
    p.servers.get? s.wallet.key = some i
  filed : ∀ key i, p.servers.get? key = some i →
    ∃ s, p.processes[i]? = some s ∧ s.wallet.key = key
  drained : ∀ i s, p.processes[i]? = some s → s.doStop = true → p.Drained env i
  answeredOnce : ∀ i s events, p.processes[i]? = some s → s.manager = some events →
    ∀ event ∈ events, ∀ a ∈ p.answers, a.key = s.wallet.key → a.event.id = event.id →
      a.server = i ∨ Void (env s.wallet.key) p.now event
  silent : ∀ a ∈ p.answers, a.stopped = false
  oneServer : ∀ a ∈ p.answers, ∀ b ∈ p.answers, a.key = b.key → a.event.id = b.event.id →
    a.server = b.server

theorem getElem?_update (p : Plugin) (i j : ℕ) (f : ServerProcess → ServerProcess) :
    (p.update i f).processes[j]? =
      if i = j then p.processes[j]?.map f else p.processes[j]? := by
  rw [update, List.getElem?_modify]
  split
  next => rfl
  next => exact Option.map_id'

/-- An event may wait at a server: it cannot be answered by a stopped one, nor a second time. -/
structure MayWait (env : String → Env) (p : Plugin) (i : ℕ) (s : ServerProcess) (event : Event) :
    Prop where
  drained : s.doStop = true → Void (env s.wallet.key) p.now event
  answeredOnce : ∀ a ∈ p.answers, a.key = s.wallet.key → a.event.id = event.id →
    a.server = i ∨ Void (env s.wallet.key) p.now event

/-- What waits in an invariant state may wait. -/
theorem StopInv.mayWait (hinv : StopInv env p) {i : ℕ} {s : ServerProcess} {events : List Event}
    (hs : p.processes[i]? = some s) (hevents : s.manager = some events) {event : Event}
    (hevent : event ∈ events) : MayWait env p i s event :=
  ⟨fun hstop => hinv.drained i s hs hstop s events hs hevents event hevent,
    hinv.answeredOnce i s events hs hevents event hevent⟩

/-- A change of one server that neither stops it nor lets anything wait that may not. -/
theorem StopInv.update (hinv : StopInv env p) {i : ℕ} {f : ServerProcess → ServerProcess}
    (hwallet : ∀ s, (f s).wallet = s.wallet) (hstop : ∀ s, (f s).doStop = s.doStop)
    (hwaits : ∀ s events, p.processes[i]? = some s → (f s).manager = some events →
      ∀ event ∈ events, MayWait env p i s event) : StopInv env (p.update i f) := by
  -- a process of the new state is an old one, or the changed one
  have hcases : ∀ j t, (p.update i f).processes[j]? = some t →
      p.processes[j]? = some t ∨ j = i ∧ ∃ s, p.processes[i]? = some s ∧ t = f s := by
    intro j t ht
    rw [getElem?_update] at ht
    split at ht
    next hij =>
      subst hij
      obtain ⟨s, hs, rfl⟩ := Option.map_eq_some_iff.1 ht
      exact .inr ⟨rfl, s, hs, rfl⟩
    next => exact .inl ht
  constructor
  case running =>
    intro j t ht hrun
    rcases hcases j t ht with hold | ⟨rfl, s, hs, rfl⟩
    · exact hinv.running j t hold hrun
    · rw [hwallet]
      exact hinv.running j s hs ((hstop s).symm.trans hrun)
  case filed =>
    intro key j hkey
    obtain ⟨s, hs, hkey'⟩ := hinv.filed key j hkey
    rw [getElem?_update]
    split
    next hij =>
      refine ⟨f s, by rw [hs]; rfl, ?_⟩
      rw [hwallet]
      exact hkey'
    next => exact ⟨s, hs, hkey'⟩
  case drained =>
    intro j t ht hstopped t' events ht' hevents event hevent
    obtain rfl := Option.some.inj (ht.symm.trans ht')
    rcases hcases j t ht with hold | ⟨rfl, s, hs, rfl⟩
    · exact (hinv.mayWait hold hevents hevent).drained hstopped
    · rw [hwallet]
      exact (hwaits s events hs hevents event hevent).drained ((hstop s).symm.trans hstopped)
  case answeredOnce =>
    intro j t events ht hevents event hevent a ha hkey hid
    rcases hcases j t ht with hold | ⟨rfl, s, hs, rfl⟩
    · exact (hinv.mayWait hold hevents hevent).answeredOnce a ha hkey hid
    · rw [hwallet] at hkey ⊢
      exact (hwaits s events hs hevents event hevent).answeredOnce a ha hkey hid
  case silent => exact hinv.silent
  case oneServer => exact hinv.oneServer

/-! ## Stopping and starting -/

theorem stopServer_now (p : Plugin) (key : String) : (p.stopServer key).now = p.now := by
  unfold stopServer
  dsimp only
  split <;> rfl

theorem stopServer_servers (p : Plugin) (key : String) :
    (p.stopServer key).servers = p.servers.erase key := by
  unfold stopServer
  dsimp only
  split <;> rfl

theorem stopServer_answers (p : Plugin) (key : String) :
    (p.stopServer key).answers = p.answers := by
  unfold stopServer
  dsimp only
  split <;> rfl

/-- Stopping the server of a key changes the flags of that server. -/
theorem getElem?_stopServer (p : Plugin) (key : String) (j : ℕ) :
    (p.stopServer key).processes[j]? =
      if p.servers.get? key = some j then
        p.processes[j]?.map fun s =>
          { s with
            doStop := true
            callbacks := false
            teardown := some ⟨.scheduled, p.taskgroups.get? key⟩ }
      else p.processes[j]? := by
  unfold stopServer
  dsimp only
  split
  next hnone => rw [hnone, if_neg (by simp)]
  next i hi =>
    rw [getElem?_update, hi]
    by_cases hij : i = j
    · rw [if_pos hij, if_pos (congrArg some hij)]
    · rw [if_neg hij, if_neg fun h => hij (Option.some.inj h)]

/-- A server after `stopServer` is the one before it, except for its flags. -/
theorem exists_of_getElem?_stopServer {key : String} {j : ℕ} {t : ServerProcess}
    (h : (p.stopServer key).processes[j]? = some t) :
    ∃ s, p.processes[j]? = some s ∧ t.wallet = s.wallet ∧ t.manager = s.manager ∧
      (t.doStop = true ∧ p.servers.get? key = some j ∨
        t = s ∧ p.servers.get? key ≠ some j) := by
  rw [getElem?_stopServer] at h
  split at h
  next hkey =>
    obtain ⟨s, hs, rfl⟩ := Option.map_eq_some_iff.1 h
    exact ⟨s, hs, rfl, rfl, .inl ⟨rfl, hkey⟩⟩
  next hkey => exact ⟨t, h, rfl, rfl, .inr ⟨rfl, hkey⟩⟩

/-- Stopping servers empties no queue, so a drained server stays drained. -/
theorem Drained.stopServer {j : ℕ} (h : p.Drained env j) (key : String) :
    (p.stopServer key).Drained env j := by
  intro t events ht hevents event hevent
  -- the queue is the one from before the stop
  obtain ⟨s, hs, hwallet, hmanager, -⟩ := exists_of_getElem?_stopServer ht
  rw [stopServer_now, hwallet]
  exact h s events hs (hmanager.symm.trans hevents) event hevent

theorem StopInv.stopServer (hinv : StopInv env p) {key : String}
    (hdrained : ∀ i, p.servers.get? key = some i → p.Drained env i) :
    StopInv env (p.stopServer key) := by
  constructor
  case running =>
    intro j t ht hrun
    obtain ⟨s, hs, -, -, ⟨hstopped, -⟩ | ⟨rfl, hother⟩⟩ := exists_of_getElem?_stopServer ht
    · rw [hstopped] at hrun
      cases hrun
    · have hfiled := hinv.running j t hs hrun
      -- a server of that key would have been the one that is stopped
      have hne : t.wallet.key ≠ key := by
        rintro rfl
        exact hother hfiled
      rw [stopServer_servers, Dict.get?_erase_of_ne _ hne]
      exact hfiled
  case filed =>
    intro k j hk
    rw [stopServer_servers] at hk
    obtain ⟨s, hs, hkey⟩ := hinv.filed k j (Dict.get?_of_get?_erase hk)
    rw [getElem?_stopServer]
    split
    next =>
      rw [hs]
      exact ⟨_, rfl, hkey⟩
    next => exact ⟨s, hs, hkey⟩
  case drained =>
    intro j t ht hstopped
    obtain ⟨s, hs, -, -, ⟨-, hkey⟩ | ⟨rfl, -⟩⟩ := exists_of_getElem?_stopServer ht
    · exact (hdrained j hkey).stopServer key
    · exact (hinv.drained j t hs hstopped).stopServer key
  case answeredOnce =>
    intro j t events ht hevents event hevent a ha hkey hid
    obtain ⟨s, hs, hwallet, hmanager, -⟩ := exists_of_getElem?_stopServer ht
    rw [stopServer_answers] at ha
    rw [stopServer_now, hwallet]
    exact hinv.answeredOnce j s events hs (hmanager.symm.trans hevents) event hevent a ha
      (hkey.trans (congrArg WalletObject.key hwallet)) hid
  case silent =>
    rw [stopServer_answers]
    exact hinv.silent
  case oneServer =>
    rw [stopServer_answers]
    exact hinv.oneServer

/-- Stopping several drained servers. -/
theorem StopInv.stopServers (hinv : StopInv env p) {keys : List String}
    (hdrained : ∀ key ∈ keys, ∀ i, p.servers.get? key = some i → p.Drained env i) :
    StopInv env (p.stopServers keys) := by
  induction keys generalizing p with
  | nil => exact hinv
  | cons key keys ih =>
    refine ih (hinv.stopServer (hdrained key List.mem_cons_self)) fun k hk i hi => ?_
    rw [stopServer_servers] at hi
    exact (hdrained k (List.mem_cons_of_mem key hk) i (Dict.get?_of_get?_erase hi)).stopServer key

theorem stopServers_servers (p : Plugin) (keys : List String) :
    (p.stopServers keys).servers = p.servers.eraseAll keys := by
  induction keys generalizing p with
  | nil => rfl
  | cons key keys ih =>
    show ((p.stopServer key).stopServers keys).servers = (p.servers.erase key).eraseAll keys
    rw [ih, stopServer_servers]

/-- After the server it replaces is stopped, a wallet that is to be started has none. -/
theorem get?_stopServers_replacedKeys {wallet : WalletObject} {enabled : Bool}
    (h : p.starts wallet enabled = true) :
    (p.stopServers (p.replacedKeys wallet enabled)).servers.get? wallet.key = none := by
  rw [stopServers_servers, Dict.get?_eraseAll]
  split
  next => rfl
  next hnot =>
    rw [Dict.get?_eq_none_iff]
    intro hmem
    refine hnot ?_
    rw [replacedKeys, if_pos h]
    exact List.mem_filter.2 ⟨hmem, decide_eq_true rfl⟩

/-- A new server of a wallet without a running one. -/
theorem StopInv.launch (hinv : StopInv env p) {wallet : WalletObject}
    (hnone : p.servers.get? wallet.key = none) (core : ClinkServer) :
    StopInv env (p.launch wallet core) := by
  -- a process of the new state is an old one, or the new server
  have hcases : ∀ j t, (p.launch wallet core).processes[j]? = some t →
      p.processes[j]? = some t ∧ j < p.processes.length ∨
        j = p.processes.length ∧ t.wallet = wallet ∧ t.doStop = false ∧ t.manager = none := by
    intro j t ht
    rw [Plugin.launch, List.getElem?_append] at ht
    split at ht
    next hlt => exact .inl ⟨ht, hlt⟩
    next hge =>
      rw [List.getElem?_singleton] at ht
      split at ht
      next hidx =>
        obtain rfl := Option.some.inj ht
        exact .inr ⟨by omega, rfl, rfl, rfl⟩
      next => cases ht
  constructor
  case running =>
    intro j t ht hrun
    rcases hcases j t ht with ⟨hold, -⟩ | ⟨rfl, rfl, -, -⟩
    · have hfiled := hinv.running j t hold hrun
      -- no running server had the key of the new one
      have hne : t.wallet.key ≠ wallet.key := by
        intro heq
        rw [heq, hnone] at hfiled
        cases hfiled
      rw [Plugin.launch, Dict.get?_set_of_ne _ hne]
      exact hfiled
    · rw [Plugin.launch]
      exact Dict.get?_set_self _ _ _
  case filed =>
    intro k j hk
    rw [Plugin.launch, Dict.get?_set] at hk
    rw [Plugin.launch]
    split at hk
    next heq =>
      obtain rfl := Option.some.inj hk
      exact ⟨_, List.getElem?_concat_length, heq.symm⟩
    next =>
      obtain ⟨s, hs, hkey⟩ := hinv.filed k j hk
      exact ⟨s, (List.getElem?_append_left (List.getElem?_eq_some_iff.1 hs).1).trans hs, hkey⟩
  case drained =>
    intro j t ht hstopped t' events ht' hevents event hevent
    obtain rfl := Option.some.inj (ht.symm.trans ht')
    rcases hcases j t ht with ⟨hold, -⟩ | ⟨-, -, -, hmanager⟩
    · exact hinv.drained j t hold hstopped t events hold hevents event hevent
    · rw [hmanager] at hevents
      cases hevents
  case answeredOnce =>
    intro j t events ht hevents
    rcases hcases j t ht with ⟨hold, -⟩ | ⟨-, -, -, hmanager⟩
    · exact hinv.answeredOnce j t events hold hevents
    · rw [hmanager] at hevents
      cases hevents
  case silent => exact hinv.silent
  case oneServer => exact hinv.oneServer

/-- Starting a wallet's server, after the one it replaces is stopped. -/
theorem StopInv.startPlugin (hinv : StopInv env p) {wallet : WalletObject} {enabled : Bool}
    (hdrained : ∀ key ∈ p.replacedKeys wallet enabled, ∀ i, p.servers.get? key = some i →
      p.Drained env i) (core : ClinkServer) :
    StopInv env (p.startPlugin wallet enabled core) := by
  unfold Plugin.startPlugin
  split
  next hstarts =>
    exact (hinv.stopServers hdrained).launch (get?_stopServers_replacedKeys hstarts) core
  next => exact hinv

/-! ## Answers -/

/-- A running server answers a request that no other server of its wallet answered. -/
theorem StopInv.answer (hinv : StopInv env p) {i : ℕ} {s : ServerProcess}
    (hs : p.processes[i]? = some s) (hrun : s.doStop = false) {event : Event}
    (hnew : ∀ a ∈ p.answers, a.key = s.wallet.key → a.event.id = event.id → a.server = i)
    (reply : Reply) :
    StopInv env
      { p with answers := p.answers ++ [⟨i, s.wallet.key, event, reply, s.doStop⟩] } := by
  have hmem : ∀ a ∈ p.answers ++ [⟨i, s.wallet.key, event, reply, s.doStop⟩],
      a ∈ p.answers ∨ a = ⟨i, s.wallet.key, event, reply, s.doStop⟩ := by
    intro a ha
    rwa [List.mem_append, List.mem_singleton] at ha
  constructor
  case running => exact hinv.running
  case filed => exact hinv.filed
  case drained => exact hinv.drained
  case answeredOnce =>
    intro j t events ht hevents e he a ha hkey hid
    rcases hmem a ha with hold | rfl
    · exact hinv.answeredOnce j t events ht hevents e he a hold hkey hid
    · -- two servers of one wallet that were not stopped are the same
      by_cases hstopped : t.doStop = true
      · exact .inr (hinv.drained j t ht hstopped t events ht hevents e he)
      · have hfiled := hinv.running j t ht (Bool.eq_false_iff.2 hstopped)
        have hkey' : s.wallet.key = t.wallet.key := hkey
        rw [← hkey', hinv.running i s hs hrun] at hfiled
        exact .inl (Option.some.inj hfiled)
  case silent =>
    intro a ha
    rcases hmem a ha with hold | rfl
    · exact hinv.silent a hold
    · exact hrun
  case oneServer =>
    intro a ha b hb hkey hid
    rcases hmem a ha with ha | rfl
    · rcases hmem b hb with hb | rfl
      · exact hinv.oneServer a ha b hb hkey hid
      · exact hnew a ha hkey hid
    -- the new answer is the only one of its server's wallet to the event, by assumption
    · rcases hmem b hb with hb | rfl
      · exact (hnew b hb hkey.symm hid.symm).symm
      · rfl

/-- Time passes. -/
theorem StopInv.advance (hinv : StopInv env p) {t : Time} (hle : p.now ≤ t) :
    StopInv env { p with now := t } := by
  refine ⟨hinv.running, hinv.filed, ?_, ?_, hinv.silent, hinv.oneServer⟩
  · intro i s hs hstopped s' events hs' hevents event hevent
    exact (hinv.drained i s hs hstopped s' events hs' hevents event hevent).mono hle
  · intro i s events hs hevents event hevent a ha hkey hid
    exact (hinv.answeredOnce i s events hs hevents event hevent a ha hkey hid).imp id
      fun h => h.mono hle

/-- A change of one server that brings no event. -/
theorem StopInv.update_of_sublist (hinv : StopInv env p) {i : ℕ}
    {f : ServerProcess → ServerProcess} (hwallet : ∀ s, (f s).wallet = s.wallet)
    (hstop : ∀ s, (f s).doStop = s.doStop)
    (hqueue : ∀ s events, p.processes[i]? = some s → (f s).manager = some events →
      ∀ event ∈ events, ∃ old, s.manager = some old ∧ event ∈ old) :
    StopInv env (p.update i f) := by
  refine hinv.update hwallet hstop fun s events hs hevents event hevent => ?_
  obtain ⟨old, hold, hmem⟩ := hqueue s events hs hevents event hevent
  exact hinv.mayWait hs hold hmem

theorem stopInv_closeStep (hinv : StopInv env p) {i : ℕ} {s : ServerProcess} {t : Teardown}
    (h : p.closeStep i s t = some p') : StopInv env p' := by
  have hflags : ∀ (p : Plugin) (t : Teardown), StopInv env p →
      StopInv env (p.update i fun s => { s with teardown := some t }) := by
    intro p t hinv
    exact hinv.update_of_sublist (fun _ => rfl) (fun _ => rfl)
      fun s events _ hevents event hevent => ⟨events, hevents, hevent⟩
  unfold closeStep at h
  split at h
  next =>
    obtain rfl := Option.some.inj h
    exact hflags p _ hinv
  next =>
    obtain rfl := Option.some.inj h
    exact hflags p _ hinv
  next =>
    split at h
    next =>
      obtain rfl := Option.some.inj h
      exact hflags p _ hinv
    next =>
      obtain rfl := Option.some.inj h
      exact (hflags p _ hinv).update_of_sublist (fun _ => rfl) (fun _ => rfl)
        fun s events _ hevents event hevent => ⟨events, hevents, hevent⟩
  next => cases h

/-- An event that a relay delivers in a calm step may wait. -/
theorem stopInv_arrive (hinv : StopInv env p) {i : ℕ} {event : Event}
    (hcalm : Calm env p (.arrive i event)) (h : step env p (.arrive i event) = some p') :
    StopInv env p' := by
  obtain ⟨s, hs, h⟩ := Option.bind_eq_some_iff.1 h
  obtain ⟨old, hold, rfl⟩ := Option.map_eq_some_iff.1 h
  refine hinv.update (fun _ => rfl) (fun _ => rfl) fun s' events hs' hevents e he => ?_
  obtain rfl := Option.some.inj (hs.symm.trans hs')
  obtain rfl : old ++ [event] = events := Option.some.inj hevents
  -- what waited before may go on waiting; the new event may wait because the step is calm
  rcases List.mem_append.1 he with he | he
  · exact hinv.mayWait hs hold he
  · obtain rfl := List.mem_singleton.1 he
    rcases hcalm.delivers i e rfl s hs with ⟨hrun, hnew⟩ | hvoid
    · refine ⟨fun hstopped => ?_, fun a ha hkey hid => .inl (hnew a ha hkey hid)⟩
      rw [hrun] at hstopped
      cases hstopped
    · exact ⟨fun _ => hvoid, fun _ _ _ _ => .inr hvoid⟩

/-- A server that answers what waits at it runs, and is the first of its wallet to answer it. -/
theorem stopInv_dispatch (hinv : StopInv env p) {i : ℕ} {calls : Calls}
    (h : step env p (.dispatch i calls) = some p') : StopInv env p' := by
  obtain ⟨s, hs, h⟩ := Option.bind_eq_some_iff.1 h
  split at h
  next event events _ hmanager =>
    obtain rfl := Option.some.inj h
    have hwait := hinv.mayWait hs hmanager (List.mem_cons_self (a := event) (l := events))
    -- reading the event from the queue
    have hread : StopInv env (p.update i fun s' =>
        { s' with
          manager := some events
          core := (s.core.dispatch (env s.wallet.key) calls p.now event).2 }) := by
      refine hinv.update (fun _ => rfl) (fun _ => rfl) fun s' events' hs' hevents' e he => ?_
      obtain rfl := Option.some.inj (hs.symm.trans hs')
      obtain rfl := Option.some.inj hevents'
      exact hinv.mayWait hs hmanager (List.mem_cons_of_mem event he)
    rcases hreply : (s.core.dispatch (env s.wallet.key) calls p.now event).1 with _ | reply
    · rw [answersOf, Option.map_none, Option.toList_none, List.append_nil]
      exact hread
    · -- the event could be answered, so the server runs and is the first to do so
      have hanswerable := answerable_of_dispatch hreply
      have hrun : s.doStop = false := by
        by_contra hstopped
        exact hwait.drained (Bool.not_eq_false _ ▸ hstopped) p.now le_rfl hanswerable
      have hs' : (p.update i fun s' =>
          { s' with
            manager := some events
            core := (s.core.dispatch (env s.wallet.key) calls p.now event).2 }).processes[i]? =
          some { s with
            manager := some events
            core := (s.core.dispatch (env s.wallet.key) calls p.now event).2 } := by
        rw [getElem?_update, if_pos rfl, hs]
        rfl
      refine hread.answer hs' hrun (fun a ha hkey hid => ?_) reply
      exact (hwait.answeredOnce a ha hkey hid).resolve_right
        fun hvoid => hvoid p.now le_rfl hanswerable
  next => cases h

/-- Calm steps keep the invariant. -/
theorem stopInv_step (hinv : StopInv env p) (hcalm : Calm env p a)
    (h : step env p a = some p') : StopInv env p' := by
  rcases a with ⟨wallet, enabled, core⟩ | ⟨wallet, enabled, core⟩ | wallet | _ | t |
    ⟨i, rebuild⟩ | ⟨i, exception⟩ | i | ⟨i, event⟩ | ⟨i, calls⟩ | ⟨i, core⟩ | i
  case startPlugin =>
    obtain rfl := Option.some.inj h
    exact hinv.startPlugin hcalm.drained core
  case setWalletEnabled =>
    obtain rfl := Option.some.inj h
    have hdrained := hcalm.drained
    rcases enabled with _ | _
    · exact hinv.stopServers hdrained
    · exact hinv.startPlugin hdrained core
  case closeWallet =>
    obtain rfl := Option.some.inj h
    rcases wallet with _ | wallet
    · exact hinv.stopServers hcalm.drained
    · exact hinv.stopServers hcalm.drained
  case onClose =>
    obtain rfl := Option.some.inj h
    exact hinv.stopServers hcalm.drained
  case advance =>
    obtain ⟨hle, h⟩ := Option.ite_none_right_eq_some.1 h
    obtain rfl := Option.some.inj h
    exact hinv.advance hle
  case listen =>
    obtain ⟨s, hs, h⟩ := Option.bind_eq_some_iff.1 h
    obtain ⟨-, h⟩ := Option.ite_none_right_eq_some.1 h
    obtain rfl := Option.some.inj h
    refine hinv.update_of_sublist (fun _ => rfl) (fun _ => rfl)
      fun s' events _ hevents event hevent => ?_
    obtain rfl : (if rebuild then [] else s'.manager.getD []) = events := Option.some.inj hevents
    -- a new manager has received nothing yet
    rcases rebuild with _ | _
    · rcases hmanager : s'.manager with _ | old
      · simp [hmanager] at hevent
      · exact ⟨old, rfl, by simpa [hmanager] using hevent⟩
    · simp at hevent
  case unlisten =>
    obtain ⟨s, hs, h⟩ := Option.bind_eq_some_iff.1 h
    obtain ⟨-, h⟩ := Option.ite_none_right_eq_some.1 h
    obtain rfl := Option.some.inj h
    refine hinv.update_of_sublist (fun _ => rfl) (fun _ => rfl)
      fun s' events _ hevents event hevent => ⟨events, ?_, hevent⟩
    have hmanager : (if exception then none else s'.manager) = some events := hevents
    rcases exception with _ | _
    · exact hmanager
    · cases hmanager
  case returnRun =>
    obtain ⟨s, hs, h⟩ := Option.bind_eq_some_iff.1 h
    obtain ⟨-, h⟩ := Option.ite_none_right_eq_some.1 h
    obtain rfl := Option.some.inj h
    exact hinv.update_of_sublist (fun _ => rfl) (fun _ => rfl)
      fun s events _ hevents event hevent => ⟨events, hevents, hevent⟩
  case arrive => exact stopInv_arrive hinv hcalm h
  case dispatch => exact stopInv_dispatch hinv h
  case other =>
    obtain ⟨s, hs, rfl⟩ := Option.map_eq_some_iff.1 h
    exact hinv.update_of_sublist (fun _ => rfl) (fun _ => rfl)
      fun s events _ hevents event hevent => ⟨events, hevents, hevent⟩
  case close =>
    obtain ⟨s, -, h⟩ := Option.bind_eq_some_iff.1 h
    obtain ⟨t, -, h⟩ := Option.bind_eq_some_iff.1 h
    exact stopInv_closeStep hinv h

theorem stopInv_init (env : String → Env) (now : Time) : StopInv env (init now) := by
  constructor
  case running =>
    intro i s hs
    simp [init] at hs
  case filed =>
    intro key i hkey
    simp [init] at hkey
  case drained =>
    intro i s hs
    simp [init] at hs
  case answeredOnce =>
    intro i s events hs
    simp [init] at hs
  case silent =>
    intro a ha
    cases ha
  case oneServer =>
    intro a ha
    cases ha

/-- In every run that stops drained servers only, and in which no relay delivers an answerable
request to a stopped server or, once a server of the wallet answered it, to another one: no stopped
server issues an invoice, and no request is answered by two servers of a wallet. -/
theorem stopped_server_is_silent {env : String → Env} {now : Time} {p : Plugin}
    (hrun : Reachable env (Calm env) (init now) p) : p.StopSafe := by
  have hinv : StopInv env p :=
    hrun.invariant (stopInv_init env now) fun _ _ _ hinv hcalm h => stopInv_step hinv hcalm h
  refine ⟨fun a ha hstopped => ?_, hinv.oneServer⟩
  -- no answer of the log came from a stopped server, whatever it carried
  rw [hinv.silent a ha] at hstopped
  cases hstopped

/-! ## Concrete runs -/

/-- A check that is enough for a calm step: nothing waits at a stopped server, and deliveries go to
running servers before anything was answered. -/
def isCalm (p : Plugin) (a : PluginAction) : Bool :=
  (p.stoppedKeys a).all (fun key => ((p.servers.get? key).bind (p.processes[·]?)).all fun s =>
    (s.manager.getD []).isEmpty) &&
  match a with
  | .arrive i _ => (p.processes[i]?).all (fun s => !s.doStop) && p.answers.isEmpty
  | _ => true

theorem calm_of_isCalm (h : p.isCalm a = true) : Calm env p a := by
  obtain ⟨hstops, harrives⟩ := Bool.and_eq_true_iff.1 h
  constructor
  · intro key hkey i hi s events hs hevents event hevent
    have hempty := List.all_eq_true.1 hstops key hkey
    rw [hi, Option.bind_some, hs, Option.all_some, hevents, Option.getD_some,
      List.isEmpty_iff] at hempty
    rw [hempty] at hevent
    cases hevent
  -- nothing was answered yet, so nothing is delivered twice
  · rintro i event rfl s hs
    obtain ⟨hrun, hanswers⟩ := Bool.and_eq_true_iff.1 harrives
    rw [hs, Option.all_some, Bool.not_eq_true'] at hrun
    refine .inl ⟨hrun, fun a ha => ?_⟩
    rw [List.isEmpty_iff.1 hanswers] at ha
    cases ha

/-- A wallet that was loaded from a file. -/
def sampleWallet : WalletObject := ⟨0, some "wallet", true⟩

/-- A request is answered, and CLINK is disabled after that. -/
theorem stopped_server_is_silent_idle :
    ∃ p : Plugin, Reachable (fun _ => .sample) (Calm fun _ => .sample) (init 0) p ∧
      p.answers.length = 1 ∧ p.servers.size = 0 ∧ p.StopSafe := by
  have hexec : (Transition.exec
      (Transition.guarded (step fun _ => .sample) fun p a => p.isCalm a = true) (init 0)
      [.startPlugin sampleWallet true (.sample 150 300), .listen 0 true,
        .arrive 0 (.sample "e" 0), .dispatch 0 (.succeeding "r"),
        .setWalletEnabled sampleWallet false (.sample 150 300)]).any
      (fun p => decide (p.answers.length = 1 ∧ p.servers.size = 0)) = true := by
    decide +kernel
  obtain ⟨p, hrun, hp⟩ := Transition.exists_reachable_of_exec_guarded hexec
  obtain ⟨hanswers, hservers⟩ := of_decide_eq_true hp
  have hcalm : Reachable (fun _ => .sample) (Calm fun _ => .sample) (init 0) p :=
    hrun.mono fun _ _ h => calm_of_isCalm h
  exact ⟨p, hcalm, hanswers, hservers, stopped_server_is_silent hcalm⟩

/-- The answer is an invoice. -/
def isInvoice (a : Answer) : Bool :=
  match a.reply.payload with
  | .success _ => true
  | _ => false

theorem exists_of_isInvoice {a : Answer} (h : isInvoice a = true) :
    ∃ bolt11, a.reply.payload = .success bolt11 := by
  unfold isInvoice at h
  split at h
  next bolt11 hpayload => exact ⟨bolt11, hpayload⟩
  next => cases h

/-- A request waits when CLINK is disabled: the stopped server still issues an invoice for it, and
so does the server that is started when CLINK is enabled again. -/
theorem stopped_server_answers :
    ∃ p, Reachable (fun _ => .sample) (fun _ _ => True) (init 0) p ∧ ¬ p.StopSafe ∧
      (∃ a ∈ p.answers, a.stopped = true ∧ ∃ bolt11, a.reply.payload = .success bolt11) ∧
      ∃ a ∈ p.answers, ∃ b ∈ p.answers, a.key = b.key ∧ a.event.id = b.event.id ∧
        a.server ≠ b.server := by
  have hexec : (Transition.exec (step fun _ => .sample) (init 0)
      [.startPlugin sampleWallet true (.sample 150 300), .listen 0 true,
        .arrive 0 (.sample "e" 0), .setWalletEnabled sampleWallet false (.sample 150 300),
        .dispatch 0 (.succeeding "r0"), .setWalletEnabled sampleWallet true (.sample 150 300),
        .listen 1 true, .arrive 1 (.sample "e" 0), .dispatch 1 (.succeeding "r1")]).any
      (fun p => (p.answers.any fun a => a.stopped && isInvoice a) &&
        p.answers.any fun a => p.answers.any fun b =>
          decide (a.key = b.key ∧ a.event.id = b.event.id ∧ a.server ≠ b.server)) = true := by
    decide +kernel
  obtain ⟨p, hrun, hp⟩ := Transition.exists_reachable_of_exec hexec
  obtain ⟨hinvoice, htwice⟩ := Bool.and_eq_true_iff.1 hp
  obtain ⟨a, ha, hstopped⟩ := List.any_eq_true.1 hinvoice
  obtain ⟨hstopped, hpayload⟩ := Bool.and_eq_true_iff.1 hstopped
  obtain ⟨bolt11, hpayload⟩ := exists_of_isInvoice hpayload
  obtain ⟨c, hc, htwice⟩ := List.any_eq_true.1 htwice
  obtain ⟨d, hd, htwice⟩ := List.any_eq_true.1 htwice
  exact ⟨p, hrun, fun h => h.silent a ha hstopped bolt11 hpayload,
    ⟨a, ha, hstopped, bolt11, hpayload⟩, c, hc, d, hd, of_decide_eq_true htwice⟩

end Plugin

end ElectrumClink
