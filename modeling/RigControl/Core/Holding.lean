import RigControl.Core.Deploy

/-!
# What a client holds

`Sound` ties the fields of a client to the ledgers of the system: what is open is what
its fields hold, and the only process is the one in `server_pid`. The calls keep it
(`sound_neutral`), so a teardown gives back everything, wherever a start has got to
(`rcServerTeardown_spec`).
-/

namespace RigControl.Core

open RigControl.Lib

/-- What the field holds, by the transport. -/
def RcConfig.linkOf (cfg : RcConfig) : Sock → FdKind
  | .listen => .listen
  | _ => if cfg.transport = .usb then .accepted else .tcp

def RcClient.held (c : RcClient) : List Nat :=
  (c.sock .control).toList ++ (c.sock .audio).toList ++ (c.sock .video).toList ++
    (c.sock .listen).toList

structure Sound (l : Loose) (c : RcClient) : Prop where
  fds : c.os.fds.Holds (c.held ++ l.map Prod.fst)
  links : ∀ k fd, c.sock k = some fd → c.os.fds.made[fd]? = some (c.cfg.linkOf k)
  loose : ∀ p ∈ l, c.os.fds.made[p.1]? = some p.2
  procs : c.os.procs.Holds c.serverPid.toList
  server : ∀ pid, c.serverPid = some pid →
    ∃ args, c.os.procs.made[pid]? = some args ∧ (args.tcp = true ↔ c.cfg.transport = .tcp)
  reverses : ∀ r ∈ c.os.reverses, c.cfg.transport = .usb ∧ r = (c.cfg.serial, c.socketName)

/-- The client without what changes while it waits. -/
def RcClient.still (c : RcClient) : RcClient :=
  { c with
    deviceMeta := ⟨0, 0, 0, 0, 0, []⟩
    serverPid := none
    abortRequested := false
    transportDesc := none
    emitted := []
    os := .empty }

def Still (v : RcClient) (_ : Loose) (c : RcClient) : Prop := c.still = v

theorem still_neutral (v : RcClient) : Neutral (Still v) where
  calls _ _ _ h := h
  clock _ _ _ h := h
  emit _ _ _ h := h
  abort _ _ _ h := h
  received _ _ _ h := h
  acquire _ _ _ h := h
  release _ _ _ _ h := h
  reap _ _ _ _ h := h

variable {l : Loose} {c c' : RcClient}

/-- What `Sound` looks at. -/
def RcClient.holdings (c : RcClient) :=
  (c.sock, c.serverPid, c.cfg.transport, c.cfg.serial, c.socketName, c.os.fds, c.os.procs,
    c.os.reverses)

theorem Sound.of_eq (h : Sound l c) (heq : c'.holdings = c.holdings) : Sound l c' := by
  simp only [RcClient.holdings, Prod.mk.injEq] at heq
  obtain ⟨hsock, hpid, htransport, hserial, hname, hfds, hprocs, hreverses⟩ := heq
  refine ⟨?_, fun k fd hfd => ?_, ?_, ?_, ?_, ?_⟩
  · rw [hfds, RcClient.held, hsock]
    exact h.fds
  · have hlink : c'.cfg.linkOf k = c.cfg.linkOf k := by
      cases k <;> simp only [RcConfig.linkOf, htransport]
    rw [hfds, hlink]
    exact h.links k fd (hsock ▸ hfd)
  · rw [hfds]
    exact h.loose
  · rw [hprocs, hpid]
    exact h.procs
  · rw [hprocs, hpid, htransport]
    exact h.server
  · rw [hreverses, htransport, hserial, hname]
    exact h.reverses

/-- A client that holds nothing. -/
theorem Sound.nothing (hfds : c.os.fds.Holds []) (hprocs : c.os.procs.Holds [])
    (hreverses : c.os.reverses = []) (hsocks : ∀ k, c.sock k = none) (hpid : c.serverPid = none) :
    Sound [] c where
  fds := by
    simp only [RcClient.held, hsocks]
    exact hfds
  links k fd hfd := by
    rw [hsocks] at hfd
    cases hfd
  loose _ hp := by cases hp
  procs := by
    rw [hpid]
    exact hprocs
  server pid hp := by
    rw [hpid] at hp
    cases hp
  reverses r hr := by
    rw [hreverses] at hr
    cases hr

theorem Sound.fds_nil (h : Sound [] c) (hsocks : ∀ k, c.sock k = none) : c.os.fds.Holds [] := by
  have hfds := h.fds
  simp only [RcClient.held, hsocks] at hfds
  exact hfds

theorem Sound.procs_nil (h : Sound [] c) (hpid : c.serverPid = none) : c.os.procs.Holds [] := by
  have hprocs := h.procs
  rw [hpid] at hprocs
  exact hprocs

/-- Over TCP there are no reverses. -/
theorem Sound.no_reverses (h : Sound l c) (htcp : c.cfg.transport = .tcp) : c.os.reverses = [] := by
  refine List.eq_nil_iff_forall_not_mem.mpr fun r hr => ?_
  have husb := (h.reverses r hr).1
  rw [htcp] at husb
  cases husb

theorem Sound.acquire (h : Sound l c) (kind : FdKind) :
    Sound ((c.os.fds.next, kind) :: l) { c with os.fds := c.os.fds.acquire kind } where
  fds := (h.fds.acquire kind).perm List.perm_middle.symm
  links k fd hfd := Ledger.acquire_lt _ _ _ (h.links k fd hfd)
  loose p hp := by
    rcases List.mem_cons.mp hp with rfl | hp
    · exact Ledger.acquire_next _ _
    · exact Ledger.acquire_lt _ _ _ (h.loose p hp)
  procs := h.procs
  server := h.server
  reverses := h.reverses

theorem Sound.release {fd : Nat} {kind : FdKind} (h : Sound ((fd, kind) :: l) c) :
    Sound l { c with os.fds := c.os.fds.release fd } where
  fds := (h.fds.perm List.perm_middle).release
  links := h.links
  loose p hp := h.loose p (List.mem_cons_of_mem _ hp)
  procs := h.procs
  server := h.server
  reverses := h.reverses

theorem Sound.reap (h : Sound l c) {pid : Nat} (hpid : c.serverPid = some pid) :
    Sound l { c with serverPid := none, os.procs := c.os.procs.release pid } where
  fds := h.fds
  links := h.links
  loose := h.loose
  procs := by
    have hholds := h.procs
    rw [hpid] at hholds
    exact hholds.release
  server _ hp := by cases hp
  reverses := h.reverses

theorem sound_neutral : Neutral Sound where
  calls _ _ _ h := h.of_eq rfl
  clock _ _ _ h := h.of_eq rfl
  emit _ _ _ h := h.of_eq rfl
  abort _ _ _ h := h.of_eq rfl
  received _ _ _ h := h.of_eq rfl
  acquire _ _ kind h := h.acquire kind
  release _ _ _ _ h := h.release
  reap _ _ _ hp h := h.reap hp

/-! ## The fields -/

theorem sock_setSock (c : RcClient) (k j : Sock) (fd : Option Nat) :
    (c.setSock k fd).sock j = if j = k then fd else c.sock j := by
  cases k <;> cases j <;> rfl

theorem still_setSock (c : RcClient) (k : Sock) (fd : Option Nat) :
    (c.setSock k fd).still = c.still.setSock k fd := by
  cases k <;> rfl

@[simp] theorem setSock_os (c : RcClient) (k : Sock) (fd : Option Nat) :
    (c.setSock k fd).os = c.os := by
  cases k <;> rfl

@[simp] theorem setSock_cfg (c : RcClient) (k : Sock) (fd : Option Nat) :
    (c.setSock k fd).cfg = c.cfg := by
  cases k <;> rfl

@[simp] theorem setSock_socketName (c : RcClient) (k : Sock) (fd : Option Nat) :
    (c.setSock k fd).socketName = c.socketName := by
  cases k <;> rfl

@[simp] theorem setSock_serverPid (c : RcClient) (k : Sock) (fd : Option Nat) :
    (c.setSock k fd).serverPid = c.serverPid := by
  cases k <;> rfl

/-- What a field holds is apart from what the others hold. -/
theorem held_perm (c : RcClient) (k : Sock) :
    c.held.Perm ((c.sock k).toList ++ (c.setSock k none).held) := by
  rw [List.perm_iff_count]
  intro fd
  cases k <;> simp only [RcClient.held, sock_setSock, List.count_append, reduceCtorEq, if_true,
    if_false, Option.toList_none, List.count_nil] <;> omega

theorem held_setSock {k : Sock} (hfree : c.sock k = none) (fd : Option Nat) :
    (c.setSock k fd).held.Perm (c.held ++ fd.toList) := by
  rw [List.perm_iff_count]
  intro x
  cases k <;> simp only [RcClient.held, sock_setSock, List.count_append, reduceCtorEq, if_true,
    if_false, hfree, Option.toList_none, List.count_nil] <;> omega

/-- A field that was free takes a descriptor over. -/
theorem Sound.setSock {k : Sock} {fd : Option Nat}
    (h : Sound (looseOf (c.cfg.linkOf k) fd ++ l) c) (hfree : c.sock k = none) :
    Sound l (c.setSock k fd) where
  fds := by
    have hloose : (looseOf (c.cfg.linkOf k) fd).map Prod.fst = fd.toList := by cases fd <;> rfl
    have hfds := h.fds
    rw [List.map_append, hloose, ← List.append_assoc] at hfds
    rw [setSock_os]
    exact hfds.perm ((held_setSock hfree fd).symm.append_right _)
  links j x hx := by
    rw [setSock_os, setSock_cfg]
    rw [sock_setSock] at hx
    split at hx
    · rename_i hj
      subst hj hx
      exact h.loose (x, c.cfg.linkOf j) (List.mem_append_left _ (by simp [looseOf]))
    · exact h.links j x hx
  loose p hp := by
    rw [setSock_os]
    exact h.loose p (List.mem_append_right _ hp)
  procs := by simpa using h.procs
  server := by simpa using h.server
  reverses := by simpa using h.reverses

/-- A field gives its descriptor back. -/
theorem Sound.unsetSock (h : Sound l c) {k : Sock} {fd : Nat} (hfd : c.sock k = some fd) :
    Sound ((fd, c.cfg.linkOf k) :: l) (c.setSock k none) where
  fds := by
    have hperm := held_perm c k
    rw [hfd] at hperm
    rw [setSock_os]
    exact (h.fds.perm (hperm.append_right _)).perm List.perm_middle.symm
  links j x hx := by
    rw [setSock_os, setSock_cfg]
    rw [sock_setSock] at hx
    split at hx
    · cases hx
    · exact h.links j x hx
  loose p hp := by
    rw [setSock_os]
    rcases List.mem_cons.mp hp with rfl | hp
    · exact h.links k fd hfd
    · exact h.loose p hp
  procs := by simpa using h.procs
  server := by simpa using h.server
  reverses := by simpa using h.reverses

theorem setSock_same {k : Sock} (hfree : c.sock k = none) : c.setSock k none = c := by
  obtain ⟨⟩ := c
  cases k <;> simp_all [RcClient.setSock, RcClient.sock]

/-! ## Teardown -/

def Here (v : RcClient) (l : Loose) (c : RcClient) : Prop := Still v l c ∧ Sound l c

theorem Here.cfg {v : RcClient} (h : Here v l c) : c.cfg = v.cfg := by
  have hstill : c.still = v := h.1
  rw [← hstill]
  rfl

theorem Here.socketName {v : RcClient} (h : Here v l c) : c.socketName = v.socketName := by
  have hstill : c.still = v := h.1
  rw [← hstill]
  rfl

theorem Here.sock {v : RcClient} (h : Here v l c) (k : Sock) : c.sock k = v.sock k := by
  have hstill : c.still = v := h.1
  rw [← hstill]
  cases k <;> rfl

theorem here_neutral (v : RcClient) : Neutral (Here v) := (still_neutral v).and sound_neutral

theorem closeSock_spec (v : RcClient) (k : Sock) {E : RcStatus → RcClient → Prop} :
    Triple (Here v l) (closeSock k) (fun _ => Here (v.setSock k none) l) E := by
  rintro c ⟨hstill, hsound⟩
  have hsame : (c.setSock k none).still = v.setSock k none := by rw [still_setSock, hstill]
  simp only [closeSock, exec_bind, exec_get]
  cases hfd : c.sock k with
  | none =>
    rw [setSock_same hfd] at hsame
    exact ⟨hsame, hsound⟩
  | some fd =>
    have hclose := (hsound.unsetSock hfd).release
    have hcomm : ({ c with os.fds := c.os.fds.release fd } : RcClient).setSock k none =
        { c.setSock k none with os.fds := (c.setSock k none).os.fds.release fd } := by
      cases k <;> rfl
    refine ⟨?_, ?_⟩
    · show (({ c with os.fds := c.os.fds.release fd } : RcClient).setSock k none).still = _
      rw [hcomm]
      exact hsame
    · show Sound l (({ c with os.fds := c.os.fds.release fd } : RcClient).setSock k none)
      rw [hcomm]
      exact hclose

/-- The client without its descriptors. -/
def RcClient.noSocks (c : RcClient) : RcClient :=
  { c with videoFd := none, audioFd := none, controlFd := none, listenFd := none }

theorem setSock_noSocks (v : RcClient) :
    (((v.setSock .control none).setSock .audio none).setSock .video none).setSock .listen none =
      v.noSocks := rfl

theorem noSocks_sock (c : RcClient) (k : Sock) : c.noSocks.sock k = none := by
  cases k <;> rfl

theorem reapServer_spec (v : RcClient) {E : RcStatus → RcClient → Prop} :
    Triple (Here v l) reapServer (fun _ c => c.serverPid = none ∧ Here v l c) E := by
  intro c hc
  simp only [reapServer, exec_bind, exec_get]
  cases hpid : c.serverPid with
  | none => exact ⟨hpid, hc⟩
  | some pid => exact ⟨rfl, (here_neutral v).reap l c pid hpid hc⟩

variable (env : Env)

/-- Everything is given back; the reverse is too if `adb reverse --remove` works. -/
structure Down (c : RcClient) : Prop where
  sound : Sound [] c
  socks : ∀ k, c.sock k = none
  serverPid : c.serverPid = none
  reverses : env.RemoveWorks → c.os.reverses = []

/-- The reverses there are, are those that the teardown removes. -/
theorem removeReverse_spec (v : RcClient) {E : RcStatus → RcClient → Prop} :
    Triple (fun c => c.serverPid = none ∧ Here v [] c)
      (rcAdbReverseRemove env v.cfg.serial v.socketName)
      (fun _ c => (env.RemoveWorks → c.os.reverses = []) ∧ c.serverPid = none ∧ Here v [] c) E := by
  rintro c ⟨hpid, hhere⟩
  have hcfg := hhere.cfg
  have hname := hhere.socketName
  obtain ⟨hstill, hsound⟩ := hhere
  simp only [rcAdbReverseRemove, adbRun, ask, exec_bind, exec_get, exec_set, exec_pure]
  cases hadb : env.adb (.reverseRemove v.cfg.serial v.socketName) c.os.calls with
  | false =>
    refine ⟨fun hworks => ?_, hpid, hstill, hsound.of_eq rfl⟩
    rw [hworks] at hadb
    cases hadb
  | true =>
    have hnone : c.os.reverses.filter (· ≠ (v.cfg.serial, v.socketName)) = [] := by
      rw [List.filter_eq_nil_iff]
      intro r hr
      obtain ⟨-, rfl⟩ := hsound.reverses r hr
      simp [hcfg, hname]
    refine ⟨fun _ => hnone, hpid, hstill, ?_⟩
    exact { hsound with
      reverses := fun r hr => hsound.reverses r (List.mem_of_mem_filter hr) }

theorem rcServerTeardown_spec (v : RcClient) {E : RcStatus → RcClient → Prop} :
    Triple (Here v []) (rcServerTeardown env)
      (fun _ c => c.still = v.noSocks ∧ Down env c) E := by
  refine (closeSock_spec v .control).bind fun _ => (closeSock_spec _ .audio).bind fun _ => ?_
  refine (closeSock_spec _ .video).bind fun _ => (closeSock_spec _ .listen).bind fun _ => ?_
  rw [setSock_noSocks]
  refine (reapServer_spec v.noSocks).bind fun _ => .get_bind fun c hc => ?_
  have hdown : ∀ c : RcClient, (env.RemoveWorks → c.os.reverses = []) → c.serverPid = none →
      Here v.noSocks [] c → c.still = v.noSocks ∧ Down env c := by
    intro c hreverses hpid hc
    exact ⟨hc.1, hc.2, fun k => (hc.sock k).trans (noSocks_sock v k), hpid, hreverses⟩
  rw [hc.2.cfg, hc.2.socketName]
  refine .ite (fun _ => ?_) fun husb => .pure fun c hc => hdown c (fun _ => ?_) hc.1 hc.2
  · exact (removeReverse_spec env v.noSocks).bind fun _ => .pure fun c hc =>
      hdown c hc.1 hc.2.1 hc.2.2
  · refine hc.2.2.no_reverses ?_
    rw [hc.2.cfg]
    cases htransport : v.noSocks.cfg.transport with
    | usb => exact absurd htransport husb
    | tcp => rfl

end RigControl.Core
