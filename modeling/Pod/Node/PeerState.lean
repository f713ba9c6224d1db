import Pod.Support.Go

/-!
# Node — peer state

`PeerState` and the handlers `PeerHandler` runs on it (`cmd/node/rpc/server.go`):
`HandleAddPeerMsg`, `HandleDonePeerMsg`, `HandleBanPeerMsg`, `DisconnectPeer` and
`HandleQuery`.  A peer is the record of what the handlers read of a `NodePeer` and its
`peer.Peer` at the moment the message is handled.  Two functions of other packages enter as
parameters (`Ext`): `net.SplitHostPort` and `addrmgr.GroupKey`.  The calls the handlers make
on the connection and address managers and on the peer (`Disconnect`) change no `PeerState`
and are not modelled; `HandleAddPeerMsg`'s result says whether the peer was kept.

`HandleQuery` may panic: `GetConnCountMsg` slices `ua[1][:8]`.  Its result is `none` then.
-/

namespace Pod.Node

open Pod

/-- `wire.NetAddress`, as far as the handlers use it. -/
structure NetAddress where
  ip : GoString
  port : Nat
  deriving DecidableEq, Repr

/-- What the handlers read of a `NodePeer`: `ID()`, `Addr()`, `LocalAddr()`, `NA()`, the
`Inbound()` and `Persistent` flags, `VersionKnown()`, `VerAckReceived()`, `Connected()`,
the connection request's ID and the `UserAgent()` it sent. -/
structure NodePeer where
  id : Nat
  addr : GoString
  localAddr : GoString
  na : NetAddress
  inbound : Bool
  persistent : Bool
  versionKnown : Bool
  verAckReceived : Bool
  connected : Bool
  connReq : Option Nat
  userAgent : GoString
  deriving DecidableEq, Repr

/-- The functions of other packages the handlers call. -/
structure Ext where
  /-- The host `net.SplitHostPort` returns, or `none` for its error. -/
  splitHostPort : GoString → Option GoString
  /-- `addrmgr.GroupKey`. -/
  groupKey : NetAddress → GoString

/-- The node's configuration the handlers read: `MaxPeers` (a channel capacity in `NewNode`,
so never negative) and `BanDuration`. -/
structure Config where
  maxPeers : Nat
  banDuration : Int

/-- What a handler reads besides the state: `time.Now()` and the node's `Shutdown` flag. -/
structure Env where
  now : Time
  shutdown : Bool

/-- `PeerState`. -/
structure PeerState where
  inboundPeers : GoMap Nat NodePeer
  outboundPeers : GoMap Nat NodePeer
  persistentPeers : GoMap Nat NodePeer
  banned : GoMap GoString Time
  outboundGroups : GoMap GoString Int

/-- The three peer maps. -/
inductive PeerList where
  | inbound
  | outbound
  | persistent
  deriving DecidableEq, Repr

namespace PeerState

/-- The state `PeerHandler` starts from. -/
def empty : PeerState := ⟨∅, ∅, ∅, ∅, ∅⟩

/-- One of the three peer maps. -/
def list (s : PeerState) : PeerList → GoMap Nat NodePeer
  | .inbound => s.inboundPeers
  | .outbound => s.outboundPeers
  | .persistent => s.persistentPeers

/-- The state with one peer map replaced. -/
def setList (s : PeerState) : PeerList → GoMap Nat NodePeer → PeerState
  | .inbound, m => { s with inboundPeers := m }
  | .outbound, m => { s with outboundPeers := m }
  | .persistent, m => { s with persistentPeers := m }

@[simp] theorem list_setList_self (s : PeerState) (l : PeerList) (m : GoMap Nat NodePeer) :
    (s.setList l m).list l = m := by cases l <;> rfl

@[simp] theorem list_setList_ne (s : PeerState) {l l' : PeerList} (m : GoMap Nat NodePeer)
    (h : l' ≠ l) : (s.setList l m).list l' = s.list l' := by
  cases l <;> cases l' <;> first | rfl | exact absurd rfl h

@[simp] theorem outboundGroups_setList (s : PeerState) (l : PeerList) (m : GoMap Nat NodePeer) :
    (s.setList l m).outboundGroups = s.outboundGroups := by cases l <;> rfl

/-- `Count()`. -/
def count (s : PeerState) : Nat :=
  s.inboundPeers.len + s.outboundPeers.len + s.persistentPeers.len

/-- The peers `ForAllPeers` visits: inbound, then outbound, then persistent. -/
def allPeers (s : PeerState) : List NodePeer :=
  (s.inboundPeers.entries ++ s.outboundPeers.entries ++ s.persistentPeers.entries).map (·.2)

end PeerState

/-- The map `HandleAddPeerMsg` puts a peer in: `Inbound()` is tested first. -/
def addPeerList (sp : NodePeer) : PeerList :=
  if sp.inbound then .inbound else if sp.persistent then .persistent else .outbound

/-- The map `HandleDonePeerMsg` looks in: `Persistent` is tested first. -/
def donePeerList (sp : NodePeer) : PeerList :=
  if sp.persistent then .persistent else if sp.inbound then .inbound else .outbound

/-- The two choices agree on every peer that is not both inbound and persistent. -/
theorem donePeerList_eq_addPeerList {sp : NodePeer} (h : sp.inbound = true → sp.persistent = false) :
    donePeerList sp = addPeerList sp := by
  cases hi : sp.inbound <;> cases hp : sp.persistent <;> simp_all [addPeerList, donePeerList]

section Handlers

variable (cfg : Config) (ext : Ext) (env : Env)

/-- The end of `HandleAddPeerMsg`, past the ban check: the peer limit, then the insertion and
the outbound group count. -/
def admitPeer (state : PeerState) (sp : NodePeer) : PeerState × Bool :=
  if cfg.maxPeers ≤ state.count then (state, false)
  else
    let groups :=
      if sp.inbound then state.outboundGroups else state.outboundGroups.bump (ext.groupKey sp.na) 1
    (({ state with outboundGroups := groups }).setList (addPeerList sp)
      ((state.list (addPeerList sp)).insert sp.id sp), true)

/-- `HandleAddPeerMsg`: the new state, and whether the peer was kept (otherwise it is told to
disconnect).  An expired ban is deleted even when the peer is then refused. -/
def handleAddPeerMsg (state : PeerState) (sp : NodePeer) : PeerState × Bool :=
  if env.shutdown then (state, false) else
  match ext.splitHostPort sp.addr with
  | none => (state, false)
  | some host =>
    match state.banned.lookup host with
    | some banEnd =>
      if env.now < banEnd then (state, false)
      else admitPeer cfg ext { state with banned := state.banned.erase host } sp
    | none => admitPeer cfg ext state sp

/-- `HandleDonePeerMsg`. -/
def handleDonePeerMsg (state : PeerState) (sp : NodePeer) : PeerState :=
  let l := donePeerList sp
  if sp.id ∈ state.list l then
    let groups :=
      if !sp.inbound && sp.versionKnown then state.outboundGroups.bump (ext.groupKey sp.na) (-1)
      else state.outboundGroups
    ({ state with outboundGroups := groups }).setList l ((state.list l).erase sp.id)
  else state

/-- `HandleBanPeerMsg`: the host is banned until `now + BanDuration`, a repeated ban
overwriting the earlier one. -/
def handleBanPeerMsg (state : PeerState) (sp : NodePeer) : PeerState :=
  match ext.splitHostPort sp.addr with
  | none => state
  | some host => { state with banned := state.banned.insert host (env.now + cfg.banDuration) }

end Handlers

/-- `DisconnectPeer`: the first peer of the range that satisfies `compareFunc` is deleted,
and returned as the peer `whenFound` is called with. -/
def disconnectPeer (peerList : GoMap Nat NodePeer) (compareFunc : NodePeer → Bool) :
    Option NodePeer × GoMap Nat NodePeer :=
  match peerList.entries.find? (fun e => compareFunc e.2) with
  | some e => (some e.2, peerList.erase e.1)
  | none => (none, peerList)

theorem disconnectPeer_some {m m' : GoMap Nat NodePeer} {cmp : NodePeer → Bool} {sp : NodePeer}
    (h : disconnectPeer m cmp = (some sp, m')) :
    ∃ k, m.lookup k = some sp ∧ cmp sp = true ∧ m' = m.erase k := by
  unfold disconnectPeer at h
  split at h
  · rename_i e he
    simp only [Prod.mk.injEq, Option.some.injEq] at h
    obtain ⟨rfl, rfl⟩ := h
    have hmem := List.mem_of_find?_eq_some he
    refine ⟨e.1, ?_, by simpa using List.find?_some he, rfl⟩
    exact (List.mem_dlookup_iff m.nodupKeys).mpr hmem
  · cases h

theorem disconnectPeer_none {m m' : GoMap Nat NodePeer} {cmp : NodePeer → Bool}
    (h : disconnectPeer m cmp = (none, m')) :
    m' = m ∧ ∀ k sp, m.lookup k = some sp → cmp sp = false := by
  unfold disconnectPeer at h
  split at h
  · cases h
  · rename_i hn
    refine ⟨(Prod.mk.inj h).2.symm, fun k sp hk => ?_⟩
    have hmem := (List.mem_dlookup_iff m.nodupKeys).mp hk
    simpa using List.find?_eq_none.mp hn _ hmem

theorem len_erase_of_lookup {m : GoMap Nat NodePeer} {k : Nat} {sp : NodePeer}
    (h : m.lookup k = some sp) : GoMap.len (m.erase k) + 1 = GoMap.len m := by
  have := GoMap.countP_erase_of_lookup (fun _ => true) h
  simpa [← GoMap.len_eq_countP_true] using this

/-- The `for found { ... }` loop of `DisconnectNodeMsg`: `DisconnectPeer` over the outbound
peers, each found peer's group count decremented, until nothing is found. -/
def disconnectOutbound (ext : Ext) (cmp : NodePeer → Bool) (out : GoMap Nat NodePeer)
    (groups : GoMap GoString Int) : GoMap Nat NodePeer × GoMap GoString Int :=
  match h : disconnectPeer out cmp with
  | (some sp, out') =>
    have : GoMap.len out' < GoMap.len out := by
      obtain ⟨k, hk, -, rfl⟩ := disconnectPeer_some h
      have := len_erase_of_lookup hk
      omega
    disconnectOutbound ext cmp out' (groups.bump (ext.groupKey sp.na) (-1))
  | (none, _) => (out, groups)
termination_by GoMap.len out

theorem disconnectOutbound_of_some {ext : Ext} {cmp : NodePeer → Bool} {out out' : GoMap Nat NodePeer}
    {sp : NodePeer} (groups : GoMap GoString Int) (h : disconnectPeer out cmp = (some sp, out')) :
    disconnectOutbound ext cmp out groups =
      disconnectOutbound ext cmp out' (groups.bump (ext.groupKey sp.na) (-1)) := by
  rw [disconnectOutbound]; split <;> simp_all

theorem disconnectOutbound_of_none {ext : Ext} {cmp : NodePeer → Bool} {out out' : GoMap Nat NodePeer}
    (groups : GoMap GoString Int) (h : disconnectPeer out cmp = (none, out')) :
    disconnectOutbound ext cmp out groups = (out, groups) := by
  rw [disconnectOutbound]; split <;> simp_all

/-- The messages `HandleQuery` answers. -/
inductive Query where
  | getConnCount
  | getPeers
  | connectNode (addr : GoString) (permanent : Bool)
  | removeNode (cmp : NodePeer → Bool)
  | getOutboundGroup (key : GoString)
  | getAddedNodes
  | disconnectNode (cmp : NodePeer → Bool)

/-- What `HandleQuery` sends on the message's reply channel. -/
inductive Reply where
  | count (n : Nat)
  | peers (ps : List NodePeer)
  | group (n : Int)
  | ok
  | err (msg : String)
  deriving Repr

/-- The key `GetConnCountMsg` counts a peer under: the 8 bytes after `"nonce"` in its user
agent and its local IP, or its local and remote addresses when there is no `"nonce"`.
`none` is the panic of `ua[1][:8]`. -/
def nonceKey (sp : NodePeer) : Option GoString :=
  match GoString.split (.ofAscii "nonce") sp.userAgent with
  | _ :: u1 :: _ =>
    (u1.sliceTo 8).map fun n =>
      n ++ .ofAscii "/" ++ (GoString.split (.ofAscii ":") sp.localAddr).headD []
  | _ => some (sp.localAddr ++ .ofAscii "/" ++ sp.addr)

/-- The `ForAllPeers` loop of `GetConnCountMsg`: the keys of the connected peers, a key added
only when it is new. -/
def countNonces : List NodePeer → List GoString → Option (List GoString)
  | [], nonces => some nonces
  | sp :: rest, nonces => do
    let nonce ← nonceKey sp
    countNonces rest (if nonce ∉ nonces ∧ sp.connected then nonce :: nonces else nonces)

/-- `HandleQuery`: the new state and the reply, or `none` for a panic.  `ConnectNodeMsg`'s
call of `AddrStringToNetAddr` is `resolve`; the connection it then starts is not modelled. -/
def handleQuery (cfg : Config) (ext : Ext) (resolve : GoString → Except String NetAddress)
    (state : PeerState) : Query → Option (PeerState × Reply)
  | .getConnCount => (countNonces state.allPeers []).map fun ns => (state, .count ns.length)
  | .getPeers => some (state, .peers (state.allPeers.filter (·.connected)))
  | .connectNode addr permanent =>
    if cfg.maxPeers ≤ state.count then some (state, .err "max peers reached")
    else if state.persistentPeers.entries.any (·.2.addr == addr) then
      some (state, .err (if permanent then "nodePeer already connected"
        else "nodePeer exists as a permanent nodePeer"))
    else match resolve addr with
      | .error e => some (state, .err e)
      | .ok _ => some (state, .ok)
  | .removeNode cmp =>
    match disconnectPeer state.persistentPeers cmp with
    | (some sp, pers) =>
      let groups := state.outboundGroups.bump (ext.groupKey sp.na) (-1)
      some ({ state with persistentPeers := pers, outboundGroups := groups }, .ok)
    | (none, _) => some (state, .err "nodePeer not found")
  | .getOutboundGroup key => some (state, .group (state.outboundGroups.getD key))
  | .getAddedNodes => some (state, .peers (state.persistentPeers.entries.map (·.2)))
  | .disconnectNode cmp =>
    match disconnectPeer state.inboundPeers cmp with
    | (some _, inb) => some ({ state with inboundPeers := inb }, .ok)
    | (none, _) =>
      match disconnectPeer state.outboundPeers cmp with
      | (some sp, out) =>
        let (out, groups) := disconnectOutbound ext cmp out
          (state.outboundGroups.bump (ext.groupKey sp.na) (-1))
        some ({ state with outboundPeers := out, outboundGroups := groups }, .ok)
      | (none, _) => some (state, .err "nodePeer not found")

/-- A message `PeerHandler`'s select takes, from `NewPeers`, `DonePeers`, `BanPeers` or
`Query`. -/
inductive Msg where
  | newPeer (sp : NodePeer)
  | donePeer (sp : NodePeer)
  | banPeer (sp : NodePeer)
  | query (q : Query)

/-- The peer a message carries. -/
def Msg.peer? : Msg → Option NodePeer
  | .newPeer sp | .donePeer sp | .banPeer sp => some sp
  | .query _ => none

/-- One turn of `PeerHandler`'s loop: the new state and the query's reply, or `none` for a
panic. -/
def handleMsg (cfg : Config) (ext : Ext) (resolve : GoString → Except String NetAddress)
    (env : Env) (state : PeerState) : Msg → Option (PeerState × Option Reply)
  | .newPeer sp => some ((handleAddPeerMsg cfg ext env state sp).1, none)
  | .donePeer sp => some (handleDonePeerMsg ext state sp, none)
  | .banPeer sp => some (handleBanPeerMsg cfg ext env state sp, none)
  | .query q => (handleQuery cfg ext resolve state q).map fun p => (p.1, some p.2)

end Pod.Node
