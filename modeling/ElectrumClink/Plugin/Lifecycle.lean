import ElectrumClink.Plugin.Stopped

/-!
# The lifecycle of the servers

`ClinkPlugin` starts and stops servers from five places: `start_plugin`, `set_wallet_enabled`,
`notify_setting_changed`, `close_wallet` and `on_close`. Some of them look a server up by its wallet
object, others by its wallet file, and each reload of a file brings a new object.

`servers_follow_wallets` says what holds between any two calls: the running servers are those on
file, each under the key of its wallet, and no two of them drive one file. A call about one wallet
leaves the servers of other files alone, and `set_wallet_enabled` has the effect that its name
promises.
-/

namespace ElectrumClink

namespace WalletObject

/-- Two objects are one, or stand for one wallet file. -/
def SameFile (v w : WalletObject) : Prop :=
  v.id = w.id ∨ ∃ path, v.path = some path ∧ w.path = some path

/-- The name that `_wallet_key` gives to an object without a path. -/
def unnamed (id : ℕ) : String := "<unnamed-wallet-" ++ toString id ++ ">"

/-- Different objects get different names. -/
theorem unnamed_injective {m n : ℕ} (h : unnamed m = unnamed n) : m = n := by
  have hname : toString m = toString n :=
    (String.append_right_inj _).1 ((String.append_left_inj _).1 h)
  have hdigits : Nat.toDigits 10 m = Nat.toDigits 10 n := by
    rw [← Nat.toList_repr, ← Nat.toList_repr]
    exact congrArg String.toList hname
  rw [← Nat.ofDigitChars_ten_toDigits (n := m), hdigits, Nat.ofDigitChars_ten_toDigits]

end WalletObject

/-- The wallet objects of a session, each with a fixed path. -/
structure WalletObjects where
  object : ℕ → WalletObject
  id_eq : ∀ n, (object n).id = n
  /-- The objects of one file agree on whether they have lightning. -/
  agree : ∀ m n path, (object m).path = some path → (object n).path = some path →
    (object m).hasLightning = (object n).hasLightning
  /-- Paths are absolute: they are not empty and do not look like the name of an object without
  one. -/
  absolute : ∀ n path, (object n).path = some path →
    path ≠ "" ∧ ∀ id, path ≠ WalletObject.unnamed id

namespace WalletObjects

/-- A wallet file that is loaded again and again. -/
instance : Inhabited WalletObjects where
  default :=
    { object := fun n => ⟨n, some "/wallets/first", true⟩
      id_eq := fun _ => rfl
      agree := fun _ _ _ _ _ => rfl
      absolute := by
        rintro _ _ ⟨⟩
        refine ⟨by decide, fun id h => ?_⟩
        have hname : "/wallets/first" = "<unnamed-wallet-" ++ toString id ++ ">" := h
        have hhead := congrArg (fun path : String => path.toList.head?) hname
        simp at hhead }

variable (world : WalletObjects)

/-- The key of an object with a path is the path. -/
theorem key_of_path {n : ℕ} {path : String} (h : (world.object n).path = some path) :
    (world.object n).key = path := by
  rw [WalletObject.key, h]
  exact if_pos (world.absolute n path h).1

/-- The key of an object without a path is its name. -/
theorem key_of_no_path {n : ℕ} (h : (world.object n).path = none) :
    (world.object n).key = WalletObject.unnamed n := by
  rw [WalletObject.key, h, world.id_eq]
  exact if_neg (not_not.2 rfl)

/-- Two objects have one key when they stand for one file, and only then. -/
theorem key_eq_iff (m n : ℕ) :
    (world.object m).key = (world.object n).key ↔ (world.object m).SameFile (world.object n) := by
  constructor
  · intro h
    rcases hm : (world.object m).path with _ | path <;>
      rcases hn : (world.object n).path with _ | path'
    · rw [world.key_of_no_path hm, world.key_of_no_path hn] at h
      obtain rfl := WalletObject.unnamed_injective h
      exact .inl rfl
    -- a path never looks like the name of an object without one
    · rw [world.key_of_no_path hm, world.key_of_path hn] at h
      exact absurd h.symm ((world.absolute n path' hn).2 m)
    · rw [world.key_of_path hm, world.key_of_no_path hn] at h
      exact absurd h ((world.absolute m path hm).2 n)
    · rw [world.key_of_path hm, world.key_of_path hn] at h
      exact .inr ⟨path, hm, h ▸ hn⟩
  · rintro (hid | ⟨path, hm, hn⟩)
    · rw [world.id_eq, world.id_eq] at hid
      rw [hid]
    · rw [world.key_of_path hm, world.key_of_path hn]

/-- Objects of one file agree on whether they have lightning. -/
theorem hasLightning_eq {m n : ℕ} (h : (world.object m).SameFile (world.object n)) :
    (world.object m).hasLightning = (world.object n).hasLightning := by
  rcases h with hid | ⟨path, hm, hn⟩
  · rw [world.id_eq, world.id_eq] at hid
    rw [hid]
  · exact world.agree m n path hm hn

end WalletObjects

/-- A server that was not stopped. -/
def ServerProcess.Running (s : ServerProcess) : Prop := s.doStop = false ∧ s.callbacks = true

/-- A listener is asked to restart; after a change of `relay` its cached pick is dropped first. -/
structure RestartRequest where
  server : ℕ
  dropsPick : Bool
deriving DecidableEq

/-- The plugin, with the restarts it asked for, which no call reads. -/
structure PluginSession where
  plugin : Plugin
  restarts : List RestartRequest

/-- A call of the plugin about wallet objects. `enabled` is what the setting of the wallet holds,
`core` what the constructor of `ClinkServer` makes of its storage, unless it raises. -/
inductive LifecycleCall
  | startPlugin (wallet : ℕ) (enabled : Bool) (core : Option ClinkServer)
  | closeWallet (wallet : Option ℕ)
  | setWalletEnabled (wallet : ℕ) (enabled : Bool) (core : Option ClinkServer)
  | notifySettingChanged (wallet : ℕ) (key : String) (enabled : Bool) (core : Option ClinkServer)
  | onClose

/-- The wallet that a call is about. -/
def LifecycleCall.wallet? : LifecycleCall → Option ℕ
  | .startPlugin wallet _ _ | .setWalletEnabled wallet _ _ | .notifySettingChanged wallet _ _ _ =>
    some wallet
  | .closeWallet wallet => wallet
  | .onClose => none

namespace Plugin

/-- `LISTENER_SETTINGS`. -/
def listenerSettings : List String :=
  ["relay", "ws_heartbeat_sec", "watchdog_interval_sec", "listener_ping_interval_sec"]

/-- `start_plugin`; when the constructor raises, the server it was to replace is stopped already. -/
def startPluginOrRaise (p : Plugin) (wallet : WalletObject) (enabled : Bool) :
    Option ClinkServer → Plugin
  | some core => p.startPlugin wallet enabled core
  -- `ClinkServer(...)` raises after the old server was stopped
  | none => p.stopServers (p.replacedKeys wallet enabled)

/-- `apply_wallet_enabled`. -/
def applyWalletEnabled (p : Plugin) (wallet : WalletObject) (enabled : Bool)
    (core : Option ClinkServer) : Plugin :=
  if enabled then p.startPluginOrRaise wallet enabled core
  else p.stopServers (p.disabledKeys wallet)

/-- `_server_for`. -/
def serverFor (p : Plugin) (wallet : WalletObject) : Option ℕ :=
  match p.servers.entries.find? fun e => p.drives e.2 wallet with
  | some e => some e.2
  -- no server has this very object: the one of its file, if any
  | none => p.servers.get? wallet.key

end Plugin

namespace PluginSession

/-- Nothing was started yet. -/
def init (now : Time) : PluginSession := ⟨Plugin.init now, []⟩

/-- `notify_setting_changed`. -/
def notifySettingChanged (s : PluginSession) (wallet : WalletObject) (key : String)
    (enabled : Bool) (core : Option ClinkServer) : PluginSession :=
  if key = "enabled" then { s with plugin := s.plugin.applyWalletEnabled wallet enabled core }
  else if key ∈ Plugin.listenerSettings then
    match s.plugin.serverFor wallet with
    | none => s
    -- `relay` drops the pick before the restart is requested, the other settings only restart
    | some i => { s with restarts := s.restarts ++ [⟨i, key = "relay"⟩] }
  else s

/-- Perform a call. -/
def call (world : WalletObjects) (s : PluginSession) : LifecycleCall → PluginSession
  | .startPlugin wallet enabled core =>
    { s with plugin := s.plugin.startPluginOrRaise (world.object wallet) enabled core }
  | .closeWallet wallet => { s with plugin := s.plugin.closeWallet (wallet.map world.object) }
  | .setWalletEnabled wallet enabled core =>
    { s with plugin := s.plugin.applyWalletEnabled (world.object wallet) enabled core }
  | .notifySettingChanged wallet key enabled core =>
    s.notifySettingChanged (world.object wallet) key enabled core
  | .onClose => { s with plugin := s.plugin.onClose }

/-- The state after a list of calls. -/
def run (world : WalletObjects) (now : Time) (calls : List LifecycleCall) : PluginSession :=
  calls.foldl (call world) (init now)

end PluginSession

namespace Plugin

variable {world : WalletObjects} {p : Plugin}

/-! ## The invariant -/

/-- The servers on file are those that run, each under the key of its wallet. -/
structure FiledInv (world : WalletObjects) (p : Plugin) : Prop where
  sameKeys : p.taskgroups.keys = p.servers.keys
  filed : ∀ key i, p.servers.get? key = some i →
    ∃ s, p.processes[i]? = some s ∧ s.wallet.key = key ∧ s.doStop = false
  running : ∀ i s, p.processes[i]? = some s → s.doStop = false →
    p.servers.get? s.wallet.key = some i
  flags : ∀ (i : ℕ) s, p.processes[i]? = some s → s.callbacks = !s.doStop
  objects : ∀ (i : ℕ) s, p.processes[i]? = some s →
    ∃ n, s.wallet = world.object n ∧ s.wallet.hasLightning = true

/-- A server that drives an object of the session is filed under the key of that object. -/
theorem FiledInv.key_of_drives (hinv : FiledInv world p) {n i : ℕ} {key : String}
    (hkey : p.servers.get? key = some i) (hdrives : p.drives i (world.object n) = true) :
    key = (world.object n).key := by
  obtain ⟨s, hs, rfl, -⟩ := hinv.filed key i hkey
  obtain ⟨m, hm, -⟩ := hinv.objects i s hs
  rw [drives, hs] at hdrives
  have hid : s.wallet.id = (world.object n).id := of_decide_eq_true hdrives
  rw [hm] at hid ⊢
  exact (world.key_eq_iff m n).2 (.inl hid)

/-- So is one that drives an object of the same file. -/
theorem FiledInv.key_of_drivesFile (hinv : FiledInv world p) {n i : ℕ} {key path : String}
    (hkey : p.servers.get? key = some i) (hpath : (world.object n).path = some path)
    (hdrives : p.drivesFile i path = true) : key = (world.object n).key := by
  obtain ⟨s, hs, rfl, -⟩ := hinv.filed key i hkey
  obtain ⟨m, hm, -⟩ := hinv.objects i s hs
  rw [drivesFile, hs] at hdrives
  have hpath' : s.wallet.path = some path := of_decide_eq_true hdrives
  rw [hm] at hpath' ⊢
  exact (world.key_eq_iff m n).2 (.inr ⟨path, hpath', hpath⟩)

/-- `_server_for` finds the server on file, by either of its two ways. -/
theorem FiledInv.serverFor_eq (hinv : FiledInv world p) (n : ℕ) :
    p.serverFor (world.object n) = p.servers.get? (world.object n).key := by
  unfold serverFor
  split
  next e he =>
    have hget : p.servers.get? e.1 = some e.2 :=
      Dict.get?_eq_some_iff.2 (List.mem_of_find?_eq_some he)
    have hdrives : p.drives e.2 (world.object n) = true := by
      simpa using List.find?_some he
    rw [← hinv.key_of_drives hget hdrives, hget]
  next => rfl

/-! ## Stopping and starting -/

theorem stopServer_taskgroups (p : Plugin) (key : String) :
    (p.stopServer key).taskgroups = p.taskgroups.erase key := by
  unfold stopServer
  dsimp only
  split <;> rfl

theorem FiledInv.stopServer (hinv : FiledInv world p) (key : String) :
    FiledInv world (p.stopServer key) := by
  constructor
  case sameKeys =>
    rw [stopServer_taskgroups, stopServer_servers, Dict.keys_erase, Dict.keys_erase, hinv.sameKeys]
  case filed =>
    intro k i hk
    rw [stopServer_servers] at hk
    obtain ⟨s, hs, hkey, hrun⟩ := hinv.filed k i (Dict.get?_of_get?_erase hk)
    have hne : k ≠ key := by
      rintro rfl
      rw [Dict.get?_erase_self] at hk
      cases hk
    refine ⟨s, ?_, hkey, hrun⟩
    rw [getElem?_stopServer, if_neg, hs]
    -- the server under the other key would have both keys
    intro hstopped
    obtain ⟨s', hs', hkey', -⟩ := hinv.filed key i hstopped
    obtain rfl := Option.some.inj (hs.symm.trans hs')
    exact hne (hkey.symm.trans hkey')
  case running =>
    intro i t ht hrun
    obtain ⟨s, hs, -, -, ⟨hstopped, -⟩ | ⟨rfl, hother⟩⟩ := exists_of_getElem?_stopServer ht
    · rw [hstopped] at hrun
      cases hrun
    · have hfiled := hinv.running i t hs hrun
      have hne : t.wallet.key ≠ key := by
        rintro rfl
        exact hother hfiled
      rw [stopServer_servers, Dict.get?_erase_of_ne _ hne, hfiled]
  case flags =>
    intro i t ht
    rw [getElem?_stopServer] at ht
    split at ht
    next =>
      obtain ⟨s, -, rfl⟩ := Option.map_eq_some_iff.1 ht
      rfl
    next => exact hinv.flags i t ht
  case objects =>
    intro i t ht
    obtain ⟨s, hs, hwallet, -⟩ := exists_of_getElem?_stopServer ht
    rw [hwallet]
    exact hinv.objects i s hs

theorem FiledInv.stopServers (hinv : FiledInv world p) (keys : List String) :
    FiledInv world (p.stopServers keys) := by
  induction keys generalizing p with
  | nil => exact hinv
  | cons key keys ih => exact ih (hinv.stopServer key)

/-- A new server of a wallet that has none. -/
theorem FiledInv.launch (hinv : FiledInv world p) {n : ℕ}
    (hlightning : (world.object n).hasLightning = true)
    (hnone : p.servers.get? (world.object n).key = none) (core : ClinkServer) :
    FiledInv world (p.launch (world.object n) core) := by
  -- a process of the new state is an old one, or the new server
  have hcases : ∀ j t, (p.launch (world.object n) core).processes[j]? = some t →
      p.processes[j]? = some t ∨ j = p.processes.length ∧ t.wallet = world.object n ∧
        t.doStop = false ∧ t.callbacks = true := by
    intro j t ht
    rw [Plugin.launch, List.getElem?_append] at ht
    split at ht
    next hlt => exact .inl ht
    next hge =>
      rw [List.getElem?_singleton] at ht
      split at ht
      next hidx =>
        obtain rfl := Option.some.inj ht
        exact .inr ⟨by omega, rfl, rfl, rfl⟩
      next => cases ht
  constructor
  case sameKeys =>
    rw [Plugin.launch, Dict.keys_set, Dict.keys_set, hinv.sameKeys]
  case filed =>
    intro key i hkey
    rw [Plugin.launch, Dict.get?_set] at hkey
    rw [Plugin.launch]
    split at hkey
    next heq =>
      obtain rfl := Option.some.inj hkey
      exact ⟨_, List.getElem?_concat_length, heq.symm, rfl⟩
    next =>
      obtain ⟨s, hs, hfiled⟩ := hinv.filed key i hkey
      exact ⟨s, (List.getElem?_append_left (List.getElem?_eq_some_iff.1 hs).1).trans hs, hfiled⟩
  case running =>
    intro i t ht hrun
    -- the wallet had no server, so the new one displaces none
    rcases hcases i t ht with hold | ⟨rfl, hwallet, -, -⟩
    · have hfiled := hinv.running i t hold hrun
      have hne : t.wallet.key ≠ (world.object n).key := by
        intro heq
        rw [heq, hnone] at hfiled
        cases hfiled
      rw [Plugin.launch, Dict.get?_set_of_ne _ hne]
      exact hfiled
    · rw [hwallet, Plugin.launch]
      exact Dict.get?_set_self _ _ _
  case flags =>
    intro i t ht
    rcases hcases i t ht with hold | ⟨rfl, -, hstop, hcallbacks⟩
    · exact hinv.flags i t hold
    · rw [hstop, hcallbacks]
      rfl
  case objects =>
    intro i t ht
    rcases hcases i t ht with hold | ⟨rfl, hwallet, -, -⟩
    · exact hinv.objects i t hold
    · rw [hwallet]
      exact ⟨n, rfl, hlightning⟩

theorem FiledInv.startPluginOrRaise (hinv : FiledInv world p) (n : ℕ) (enabled : Bool)
    (core : Option ClinkServer) :
    FiledInv world (p.startPluginOrRaise (world.object n) enabled core) := by
  rcases core with _ | core
  · exact hinv.stopServers _
  · show FiledInv world (p.startPlugin (world.object n) enabled core)
    unfold startPlugin
    split
    next hstarts =>
      have hlightning : (world.object n).hasLightning = true := by
        unfold starts at hstarts
        simp only [Bool.and_eq_true] at hstarts
        exact hstarts.1.1
      -- the servers that are replaced are stopped first, which empties the key
      exact (hinv.stopServers _).launch hlightning (get?_stopServers_replacedKeys hstarts) core
    next => exact hinv

theorem FiledInv.applyWalletEnabled (hinv : FiledInv world p) (n : ℕ) (enabled : Bool)
    (core : Option ClinkServer) :
    FiledInv world (p.applyWalletEnabled (world.object n) enabled core) := by
  rcases enabled with _ | _
  · exact hinv.stopServers _
  · exact hinv.startPluginOrRaise n true core

/-! ## What a call leaves alone -/

/-- A server and its place on file are as before. -/
structure Untouched (p p' : Plugin) (i : ℕ) (s : ServerProcess) : Prop where
  process : p'.processes[i]? = some s
  filed : ∀ key, p'.servers.get? key = some i ↔ p.servers.get? key = some i
  taskgroup : p'.taskgroups.get? s.wallet.key = p.taskgroups.get? s.wallet.key

variable {i : ℕ} {s : ServerProcess}

/-- The server of another key is not on file under this one. -/
theorem FiledInv.get?_ne (hinv : FiledInv world p) (hs : p.processes[i]? = some s) {key : String}
    (hne : s.wallet.key ≠ key) : p.servers.get? key ≠ some i := by
  intro hkey
  obtain ⟨s', hs', hkey', -⟩ := hinv.filed key i hkey
  obtain rfl := Option.some.inj (hs.symm.trans hs')
  exact hne hkey'

theorem FiledInv.untouched_stopServer (hinv : FiledInv world p)
    (hs : p.processes[i]? = some s) {key : String} (hne : s.wallet.key ≠ key) :
    Untouched p (p.stopServer key) i s := by
  refine ⟨?_, fun k => ?_, ?_⟩
  · rw [getElem?_stopServer, if_neg (hinv.get?_ne hs hne), hs]
  · rw [stopServer_servers]
    by_cases hk : k = key
    · rw [hk, Dict.get?_erase_self]
      exact iff_of_false (by rintro ⟨⟩) (hinv.get?_ne hs hne)
    · rw [Dict.get?_erase_of_ne _ hk]
  · rw [stopServer_taskgroups, Dict.get?_erase_of_ne _ hne]

theorem FiledInv.untouched_stopServers (hinv : FiledInv world p)
    (hs : p.processes[i]? = some s) (keys : List String) (hne : ∀ key ∈ keys, s.wallet.key ≠ key) :
    Untouched p (p.stopServers keys) i s := by
  induction keys generalizing p with
  | nil => exact ⟨hs, fun _ => Iff.rfl, rfl⟩
  | cons key keys ih =>
    have hone := hinv.untouched_stopServer hs (hne key List.mem_cons_self)
    have hrest := ih (hinv.stopServer key) hone.process
      fun k hk => hne k (List.mem_cons_of_mem key hk)
    exact ⟨hrest.process, fun k => (hrest.filed k).trans (hone.filed k),
      hrest.taskgroup.trans hone.taskgroup⟩

theorem FiledInv.untouched_launch (hinv : FiledInv world p) (hs : p.processes[i]? = some s)
    {wallet : WalletObject} (hne : s.wallet.key ≠ wallet.key) (core : ClinkServer) :
    Untouched p (p.launch wallet core) i s := by
  have hlt := (List.getElem?_eq_some_iff.1 hs).1
  refine ⟨(List.getElem?_append_left hlt).trans hs, fun k => ?_, ?_⟩
  · rw [Plugin.launch, Dict.get?_set]
    split
    next hk =>
      -- the key now has the new server; the old one of another wallet never had it
      rw [hk]
      refine iff_of_false ?_ (hinv.get?_ne hs hne)
      intro hnew
      exact hlt.ne' (Option.some.inj hnew)
    next => exact Iff.rfl
  · rw [Plugin.launch, Dict.get?_set_of_ne _ hne]

/-- `apply_wallet_enabled` stops servers of the wallet's key only. -/
theorem FiledInv.eq_of_mem_disabledKeys (hinv : FiledInv world p) {n : ℕ} {key : String}
    (h : key ∈ p.disabledKeys (world.object n)) : key = (world.object n).key := by
  obtain ⟨e, he, rfl⟩ := List.mem_map.1 h
  obtain ⟨hmem, hwhy⟩ := List.mem_filter.1 he
  -- by the object or by the key: under the invariant both mean one file
  rcases Bool.or_eq_true_iff.1 hwhy with hdrives | hkey
  · exact hinv.key_of_drives (Dict.get?_eq_some_iff.2 hmem) hdrives
  · exact beq_iff_eq.1 hkey

/-- So does `close_wallet`. -/
theorem FiledInv.eq_of_mem_closedKeys (hinv : FiledInv world p) {n : ℕ} {key : String}
    (h : key ∈ p.closedKeys (world.object n)) : key = (world.object n).key := by
  unfold closedKeys at h
  split at h
  next e he =>
    obtain rfl := List.mem_singleton.1 h
    -- the server of this object
    refine hinv.key_of_drives (Dict.get?_eq_some_iff.2 (List.mem_of_find?_eq_some he)) ?_
    simpa using List.find?_some he
  next =>
    split at h
    next => cases h
    next path hpath =>
      -- or else the first one of its file
      obtain ⟨e, he, rfl⟩ := Option.map_eq_some_iff.1 (Option.mem_toList.1 h)
      refine hinv.key_of_drivesFile (Dict.get?_eq_some_iff.2 (List.mem_of_find?_eq_some he))
        hpath ?_
      simpa using List.find?_some he

theorem eq_of_mem_replacedKeys {wallet : WalletObject} {enabled : Bool} {key : String}
    (h : key ∈ p.replacedKeys wallet enabled) : key = wallet.key := by
  unfold replacedKeys at h
  split at h
  next => exact of_decide_eq_true (List.mem_filter.1 h).2
  next => cases h

theorem FiledInv.untouched_startPluginOrRaise (hinv : FiledInv world p)
    (hs : p.processes[i]? = some s) {n : ℕ} (hne : s.wallet.key ≠ (world.object n).key)
    (enabled : Bool) (core : Option ClinkServer) :
    Untouched p (p.startPluginOrRaise (world.object n) enabled core) i s := by
  have hstop := hinv.untouched_stopServers hs (p.replacedKeys (world.object n) enabled)
    fun key hkey => (eq_of_mem_replacedKeys hkey).symm ▸ hne
  rcases core with _ | core
  · exact hstop
  · show Untouched p (p.startPlugin (world.object n) enabled core) i s
    unfold startPlugin
    split
    next =>
      have hlaunch := (hinv.stopServers _).untouched_launch hstop.process hne core
      exact ⟨hlaunch.process, fun k => (hlaunch.filed k).trans (hstop.filed k),
        hlaunch.taskgroup.trans hstop.taskgroup⟩
    next => exact ⟨hs, fun _ => Iff.rfl, rfl⟩

theorem FiledInv.untouched_applyWalletEnabled (hinv : FiledInv world p)
    (hs : p.processes[i]? = some s) {n : ℕ} (hne : s.wallet.key ≠ (world.object n).key)
    (enabled : Bool) (core : Option ClinkServer) :
    Untouched p (p.applyWalletEnabled (world.object n) enabled core) i s := by
  rcases enabled with _ | _
  · exact hinv.untouched_stopServers hs _ fun key hkey =>
      (hinv.eq_of_mem_disabledKeys hkey).symm ▸ hne
  · exact hinv.untouched_startPluginOrRaise hs hne true core

/-! ## Which wallets are served -/

/-- A running server drives the object, or another one of its file. -/
def Served (p : Plugin) (wallet : WalletObject) : Prop :=
  ∃ (i : ℕ) (s : ServerProcess), p.processes[i]? = some s ∧ s.Running ∧ wallet.SameFile s.wallet

theorem FiledInv.running_iff (hinv : FiledInv world p) (hs : p.processes[i]? = some s) :
    s.Running ↔ s.doStop = false := by
  unfold ServerProcess.Running
  rw [hinv.flags i s hs]
  constructor
  · exact And.left
  · intro h
    rw [h]
    exact ⟨rfl, rfl⟩

/-- The server on file under the key of an object is the running one that drives its file. -/
theorem FiledInv.get?_key_iff (hinv : FiledInv world p) (n i : ℕ) :
    p.servers.get? (world.object n).key = some i ↔
      ∃ s, p.processes[i]? = some s ∧ s.Running ∧ (world.object n).SameFile s.wallet := by
  constructor
  · intro hkey
    obtain ⟨s, hs, hkey', hrun⟩ := hinv.filed _ i hkey
    obtain ⟨m, hm, -⟩ := hinv.objects i s hs
    refine ⟨s, hs, (hinv.running_iff hs).2 hrun, ?_⟩
    rw [hm] at hkey' ⊢
    exact (world.key_eq_iff n m).1 hkey'.symm
  · rintro ⟨s, hs, hrun, hfile⟩
    have hfiled := hinv.running i s hs hrun.1
    obtain ⟨m, hm, -⟩ := hinv.objects i s hs
    rw [hm] at hfile hfiled
    rwa [(world.key_eq_iff n m).2 hfile]

theorem FiledInv.served_iff (hinv : FiledInv world p) (n : ℕ) :
    p.Served (world.object n) ↔ ∃ i, p.servers.get? (world.object n).key = some i :=
  exists_congr fun i => (hinv.get?_key_iff n i).symm

/-- When there is nothing to start, the wallet is served already or has no lightning. -/
theorem FiledInv.served_of_not_starts (hinv : FiledInv world p) {n : ℕ}
    (h : p.starts (world.object n) true = false) :
    p.Served (world.object n) ↔ (world.object n).hasLightning = true := by
  constructor
  · rintro ⟨i, s, hs, -, hfile⟩
    obtain ⟨m, hm, hlightning⟩ := hinv.objects i s hs
    rw [hm] at hfile hlightning
    rw [world.hasLightning_eq hfile, hlightning]
  · intro hlightning
    rw [hinv.served_iff]
    rcases hget : p.servers.get? (world.object n).key with _ | i
    · rw [starts, hlightning, hget] at h
      cases h
    · exact ⟨i, rfl⟩

theorem FiledInv.served_startPluginOrRaise (hinv : FiledInv world p) (n : ℕ)
    {core : Option ClinkServer}
    (hreturns : (core.isNone && p.starts (world.object n) true) = false) :
    (p.startPluginOrRaise (world.object n) true core).Served (world.object n) ↔
      (world.object n).hasLightning = true := by
  rcases hstarts : p.starts (world.object n) true with _ | _
  · have hsame : p.startPluginOrRaise (world.object n) true core = p := by
      rcases core with _ | core
      · show p.stopServers (p.replacedKeys (world.object n) true) = p
        rw [replacedKeys, hstarts, if_neg Bool.false_ne_true]
        rfl
      · show p.startPlugin (world.object n) true core = p
        rw [startPlugin, hstarts, if_neg Bool.false_ne_true]
    rw [hsame]
    exact hinv.served_of_not_starts hstarts
  · rcases core with _ | core
    · rw [hstarts] at hreturns
      cases hreturns
    · -- the new server drives the wallet, which has lightning
      rw [(hinv.startPluginOrRaise n true (some core)).served_iff]
      refine iff_of_true ⟨(p.stopServers (p.replacedKeys (world.object n) true)).processes.length,
        ?_⟩ ?_
      · show (p.startPlugin (world.object n) true core).servers.get? _ = _
        rw [Plugin.startPlugin, if_pos hstarts, Plugin.launch]
        exact Dict.get?_set_self _ _ _
      · unfold starts at hstarts
        simp only [Bool.and_eq_true] at hstarts
        exact hstarts.1.1

/-- A wallet that is disabled is not served any more. -/
theorem FiledInv.not_served_disabled (hinv : FiledInv world p) (n : ℕ) :
    ¬ (p.stopServers (p.disabledKeys (world.object n))).Served (world.object n) := by
  rw [(hinv.stopServers _).served_iff]
  rintro ⟨i, hi⟩
  rw [stopServers_servers, Dict.get?_eraseAll] at hi
  split at hi
  next => cases hi
  next hnot =>
    refine hnot (List.mem_map.2 ⟨((world.object n).key, i), List.mem_filter.2 ⟨?_, ?_⟩, rfl⟩)
    · exact Dict.get?_eq_some_iff.1 hi
    · rw [beq_self_eq_true, Bool.or_true]

/-- After everything is stopped, no server runs. -/
theorem FiledInv.stopServers_all (hinv : FiledInv world p) :
    (p.stopServers p.servers.keys).servers = ∅ ∧
      ∀ s ∈ (p.stopServers p.servers.keys).processes, ¬ s.Running := by
  have hnone : ∀ key, (p.stopServers p.servers.keys).servers.get? key = none := by
    intro key
    rw [stopServers_servers, Dict.get?_eraseAll]
    split
    next => rfl
    next hnot => exact Dict.get?_eq_none_iff.2 hnot
  refine ⟨?_, fun s hs hrun => ?_⟩
  · rw [stopServers_servers]
    ext1
    rw [Dict.entries_eraseAll, Dict.entries_empty, List.filter_eq_nil_iff]
    intro e he hkept
    exact of_decide_eq_true hkept (List.mem_map_of_mem he)
  · obtain ⟨i, hi⟩ := List.mem_iff_getElem?.1 hs
    have hfiled := (hinv.stopServers p.servers.keys).running i s hi hrun.1
    rw [hnone] at hfiled
    cases hfiled

/-! ## Between two calls -/

/-- The running servers are those on file, and each drives a wallet file of its own. -/
structure Consistent (world : WalletObjects) (p : Plugin) : Prop where
  sameKeys : p.taskgroups.keys = p.servers.keys
  keyed : ∀ key i, p.servers.get? key = some i →
    ∃ s, p.processes[i]? = some s ∧ s.wallet.key = key
  /-- A server runs when it is on file; otherwise both of its flags say that it was stopped. -/
  running : ∀ (i : ℕ) s, p.processes[i]? = some s →
    (s.Running ↔ ∃ key, p.servers.get? key = some i) ∧
      (s.Running ∨ s.doStop = true ∧ s.callbacks = false)
  onePerFile : ∀ (i j : ℕ) s t, p.processes[i]? = some s → p.processes[j]? = some t →
    s.Running → t.Running → s.wallet.SameFile t.wallet → i = j
  /-- `_server_for` finds the running server of an object. -/
  serverFor : ∀ n i, p.serverFor (world.object n) = some i ↔
    ∃ s, p.processes[i]? = some s ∧ s.Running ∧ (world.object n).SameFile s.wallet

theorem FiledInv.consistent (hinv : FiledInv world p) : Consistent world p := by
  constructor
  case sameKeys => exact hinv.sameKeys
  case keyed =>
    intro key i hkey
    obtain ⟨s, hs, hkey', -⟩ := hinv.filed key i hkey
    exact ⟨s, hs, hkey'⟩
  case running =>
    intro i s hs
    refine ⟨(hinv.running_iff hs).trans ⟨fun hrun => ⟨_, hinv.running i s hs hrun⟩, ?_⟩, ?_⟩
    · rintro ⟨key, hkey⟩
      obtain ⟨s', hs', -, hrun⟩ := hinv.filed key i hkey
      obtain rfl := Option.some.inj (hs.symm.trans hs')
      exact hrun
    · rcases hstop : s.doStop with _ | _
      · exact .inl ((hinv.running_iff hs).2 hstop)
      · refine .inr ⟨rfl, ?_⟩
        rw [hinv.flags i s hs, hstop]
        rfl
  case onePerFile =>
    intro i j s t hs ht hsrun htrun hfile
    -- both are on file under the key of the one file
    obtain ⟨m, hm, -⟩ := hinv.objects i s hs
    obtain ⟨n, hn, -⟩ := hinv.objects j t ht
    have hi := hinv.running i s hs hsrun.1
    have hj := hinv.running j t ht htrun.1
    rw [hm, hn] at hfile
    rw [hm, (world.key_eq_iff m n).2 hfile, ← hn, hj] at hi
    exact (Option.some.inj hi).symm
  case serverFor =>
    intro n i
    rw [hinv.serverFor_eq, hinv.get?_key_iff]

end Plugin

namespace PluginSession

variable {world : WalletObjects} {s : PluginSession}

open Plugin (FiledInv)

theorem filedInv_notifySettingChanged (hinv : FiledInv world s.plugin) (n : ℕ) (key : String)
    (enabled : Bool) (core : Option ClinkServer) :
    FiledInv world (s.notifySettingChanged (world.object n) key enabled core).plugin := by
  unfold notifySettingChanged
  split
  next => exact hinv.applyWalletEnabled n enabled core
  next =>
    split
    next => split <;> exact hinv
    next => exact hinv

/-- Every call keeps the invariant. -/
theorem filedInv_call (hinv : FiledInv world s.plugin) (c : LifecycleCall) :
    FiledInv world (s.call world c).plugin := by
  rcases c with ⟨n, enabled, core⟩ | wallet | ⟨n, enabled, core⟩ | ⟨n, key, enabled, core⟩ | _
  case startPlugin => exact hinv.startPluginOrRaise n enabled core
  case closeWallet =>
    rcases wallet with _ | n
    · exact hinv.stopServers _
    · exact hinv.stopServers _
  case setWalletEnabled => exact hinv.applyWalletEnabled n enabled core
  case notifySettingChanged => exact filedInv_notifySettingChanged hinv n key enabled core
  case onClose => exact hinv.stopServers _

theorem filedInv_run (world : WalletObjects) (now : Time) (calls : List LifecycleCall) :
    FiledInv world (run world now calls).plugin := by
  have hcalls : ∀ s : PluginSession, FiledInv world s.plugin →
      FiledInv world (calls.foldl (call world) s).plugin := by
    induction calls with
    | nil => exact fun s hinv => hinv
    | cons c calls ih => exact fun s hinv => ih _ (filedInv_call hinv c)
  refine hcalls (init now) ⟨rfl, ?_, ?_, ?_, ?_⟩
  · rintro key i ⟨⟩
  · rintro i s ⟨⟩
  · rintro i s ⟨⟩
  · rintro i s ⟨⟩

/-- A server, its place on file and the restarts asked of it are as before. -/
structure Untouched (s s' : PluginSession) (i : ℕ) (t : ServerProcess) : Prop where
  plugin : s.plugin.Untouched s'.plugin i t
  restarts : (s'.restarts.filter fun r => r.server = i) = s.restarts.filter fun r => r.server = i

/-- A call about a wallet leaves the servers of other files alone. -/
theorem untouched_call (hinv : FiledInv world s.plugin) {c : LifecycleCall} {n i : ℕ}
    {t : ServerProcess} (hc : c.wallet? = some n) (ht : s.plugin.processes[i]? = some t)
    (hother : ¬ (world.object n).SameFile t.wallet) : Untouched s (s.call world c) i t := by
  have hne : t.wallet.key ≠ (world.object n).key := by
    obtain ⟨m, hm, -⟩ := hinv.objects i t ht
    rw [hm] at hother ⊢
    exact fun h => hother ((world.key_eq_iff n m).1 h.symm)
  rcases c with ⟨m, enabled, core⟩ | wallet | ⟨m, enabled, core⟩ | ⟨m, key, enabled, core⟩ | _
  case startPlugin =>
    obtain rfl := Option.some.inj hc
    exact ⟨hinv.untouched_startPluginOrRaise ht hne enabled core, rfl⟩
  case closeWallet =>
    obtain rfl : wallet = some n := hc
    refine ⟨hinv.untouched_stopServers ht _ fun key hkey => ?_, rfl⟩
    exact (hinv.eq_of_mem_closedKeys hkey).symm ▸ hne
  case setWalletEnabled =>
    obtain rfl := Option.some.inj hc
    exact ⟨hinv.untouched_applyWalletEnabled ht hne enabled core, rfl⟩
  case notifySettingChanged =>
    obtain rfl := Option.some.inj hc
    show Untouched s (s.notifySettingChanged (world.object m) key enabled core) i t
    have hsame : Untouched s s i t := ⟨⟨ht, fun _ => Iff.rfl, rfl⟩, rfl⟩
    unfold notifySettingChanged
    split
    next => exact ⟨hinv.untouched_applyWalletEnabled ht hne enabled core, rfl⟩
    next =>
      split
      next =>
        split
        next => exact hsame
        next j hj =>
          -- the listener that is asked to restart is that of the wallet's file
          refine ⟨hsame.plugin, ?_⟩
          have hij : j ≠ i := by
            rintro rfl
            rw [hinv.serverFor_eq] at hj
            exact hinv.get?_ne ht hne hj
          rw [List.filter_append, List.filter_cons_of_neg (by simpa using hij), List.filter_nil,
            List.append_nil]
      next => exact hsame
  case onClose => cases hc

/-- After any calls about the wallet objects of a session:
* the running servers are those on file, each under the key of its wallet, and at most one drives a
  wallet file;
* a call about a wallet leaves the servers of other files alone;
* `set_wallet_enabled`, unless the constructor of the server raises, leaves the wallet served if it
  was enabled and has lightning, and only then;
* `on_close` leaves no server. -/
theorem servers_follow_wallets (world : WalletObjects) (now : Time) (calls : List LifecycleCall) :
    Plugin.Consistent world (run world now calls).plugin ∧
    (∀ c n i t, c.wallet? = some n → (run world now calls).plugin.processes[i]? = some t →
      ¬ (world.object n).SameFile t.wallet →
      Untouched (run world now calls) ((run world now calls).call world c) i t) ∧
    (∀ n enabled core,
      (core.isNone && (run world now calls).plugin.starts (world.object n) enabled) = false →
      (((run world now calls).call world (.setWalletEnabled n enabled core)).plugin.Served
          (world.object n) ↔ enabled = true ∧ (world.object n).hasLightning = true)) ∧
    ((run world now calls).call world .onClose).plugin.servers = ∅ ∧
      ∀ t ∈ ((run world now calls).call world .onClose).plugin.processes, ¬ t.Running := by
  have hinv := filedInv_run world now calls
  refine ⟨hinv.consistent, fun c n i t hc ht hother => untouched_call hinv hc ht hother,
    fun n enabled core hreturns => ?_, hinv.stopServers_all⟩
  rcases enabled with _ | _
  · refine iff_of_false (hinv.not_served_disabled n) ?_
    rintro ⟨⟨⟩, -⟩
  · exact (hinv.served_startPluginOrRaise n hreturns).trans (and_iff_right rfl).symm

end PluginSession

end ElectrumClink
