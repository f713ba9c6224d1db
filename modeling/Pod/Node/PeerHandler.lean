import Pod.Node.PeerInvariant

/-!
# Node — the select loop of `PeerHandler`

`OnVersion` offers a peer by `AddPeer`, a send on `NewPeers`; `PeerDoneHandler` sends the
peer on `DonePeers` once it has disconnected.  `PeerHandler` takes one pending message at a
time, from whichever ready channel Go's `select` picks.  A `PeerLoop` is the handler's state, the
messages pending in each channel, and the messages handled so far.

* `peerState_consistent`: the peer maps stay consistent in every run of the loop whose handled
  messages are admissible (`PeerLoop.reachable` carries `Reachable.consistent` to the loop).
* `peerLoop_liveSince`: the handler keeps a peer in a map only while no done message for it
  has been handled since its offer — a peer whose done message is handled after its add
  message is gone for good.
* `peerHandler_done_before_add`: but the select may take a peer's done message before its
  add message, both pending, and the peer then stays in `OutboundPeers` after
  `HandleDonePeerMsg` handled it.
-/

namespace Pod.Node

open Pod

/-! ### A peer stays only while it has no later done message -/

/-- The peer with ID `k` was offered in `tr`, and no done message for `k` follows the offer. -/
def LiveSince (k : Nat) (tr : List Msg) : Prop :=
  ∃ p tr₁ tr₂, tr = tr₁ ++ .newPeer p :: tr₂ ∧ p.id = k ∧ ∀ sp, Msg.donePeer sp ∈ tr₂ → sp.id ≠ k

theorem LiveSince.snoc {k : Nat} {tr : List Msg} (h : LiveSince k tr) (m : Msg)
    (hm : ∀ sp, m = .donePeer sp → sp.id ≠ k) : LiveSince k (tr ++ [m]) := by
  obtain ⟨p, tr₁, tr₂, rfl, hp, hd⟩ := h
  refine ⟨p, tr₁, tr₂ ++ [m], by simp, hp, fun sp hsp => ?_⟩
  rcases List.mem_append.mp hsp with h | h
  · exact hd sp h
  · exact hm sp (List.mem_singleton.mp h).symm

theorem disconnectOutbound_lookup (ext : Ext) (cmp : NodePeer → Bool) (out : GoMap Nat NodePeer)
    (groups : GoMap GoString Int) {k : Nat} {p : NodePeer}
    (hk : (disconnectOutbound ext cmp out groups).1.lookup k = some p) : out.lookup k = some p := by
  induction out, groups using disconnectOutbound.induct ext cmp with
  | case1 out groups sp out' hd _ ih =>
    rw [disconnectOutbound_of_some groups hd] at hk
    obtain ⟨k', -, -, rfl⟩ := disconnectPeer_some hd
    exact lookup_of_lookup_erase (ih hk)
  | case2 out groups _ hd => rwa [disconnectOutbound_of_none groups hd] at hk

theorem handleQuery_lookup {cfg : Config} {ext : Ext} {resolve : GoString → Except String NetAddress}
    {s s' : PeerState} {q : Query} {rep : Reply} (hq : handleQuery cfg ext resolve s q = some (s', rep))
    {l : PeerList} {k : Nat} {p : NodePeer} (hk : (s'.list l).lookup k = some p) :
    (s.list l).lookup k = some p := by
  cases q with
  | getConnCount =>
    obtain ⟨_, -, he⟩ := Option.map_eq_some'.mp hq
    cases he; exact hk
  | getPeers | getOutboundGroup _ | getAddedNodes => cases hq; exact hk
  | connectNode addr permanent =>
    simp only [handleQuery] at hq
    split_ifs at hq <;> try split at hq
    all_goals cases hq; exact hk
  | removeNode cmp =>
    simp only [handleQuery] at hq
    split at hq
    · rename_i sp pers hd
      cases hq
      obtain ⟨k', -, -, rfl⟩ := disconnectPeer_some hd
      exact lookup_setList_erase (l := .persistent) (x := _) hk
    · cases hq; exact hk
  | disconnectNode cmp =>
    simp only [handleQuery] at hq
    split at hq
    · rename_i inb hd
      cases hq
      obtain ⟨k', -, -, rfl⟩ := disconnectPeer_some hd
      exact lookup_setList_erase (l := .inbound) (x := s.outboundGroups) hk
    · split at hq
      · rename_i sp out hd
        cases hq
        obtain ⟨k', -, -, rfl⟩ := disconnectPeer_some hd
        cases l
        · exact hk
        · exact lookup_of_lookup_erase (disconnectOutbound_lookup ext cmp _ _ hk)
        · exact hk
      · cases hq; exact hk

/-- Every entry after a handled message is an entry before it, or the peer it offered. -/
theorem handleMsg_lookup {cfg : Config} {ext : Ext} {resolve : GoString → Except String NetAddress}
    {env : Env} {s s' : PeerState} {m : Msg} {r : Option Reply}
    (hm : handleMsg cfg ext resolve env s m = some (s', r)) {l : PeerList} {k : Nat}
    {p : NodePeer} (hk : (s'.list l).lookup k = some p) :
    (s.list l).lookup k = some p ∨ (m = .newPeer p ∧ p.id = k) := by
  cases m with
  | newPeer sp =>
    cases hm
    have hpeer : sp = p ∧ p.id = k ∧ addPeerList sp = l →
        Msg.newPeer sp = .newPeer p ∧ p.id = k :=
      fun ⟨he, hp, _⟩ => ⟨he ▸ rfl, hp⟩
    unfold handleAddPeerMsg at hk
    split_ifs at hk
    · exact .inl hk
    split at hk
    · exact .inl hk
    split at hk
    · split_ifs at hk
      · exact .inl hk
      · exact (admitPeer_lookup (fun _ => PeerState.list_withBanned _ _ _) hk).imp_right hpeer
    · exact (admitPeer_lookup (fun _ => rfl) hk).imp_right hpeer
  | donePeer sp =>
    cases hm
    unfold handleDonePeerMsg at hk
    dsimp only at hk
    by_cases hin : sp.id ∈ s.list (donePeerList sp)
    · rw [if_pos hin] at hk; exact .inl (lookup_setList_erase hk)
    · rw [if_neg hin] at hk; exact .inl hk
  | banPeer sp =>
    cases hm
    simp only [handleBanPeerMsg] at hk
    split at hk
    · exact .inl hk
    · exact .inl (by simpa using hk)
  | query q =>
    obtain ⟨⟨s₁, rep⟩, hq, he⟩ := Option.map_eq_some'.mp hm
    cases he
    exact .inl (handleQuery_lookup hq hk)

/-- A done message removes its peer from every map, when the peer is not both inbound and
persistent. -/
theorem Inv.done_absent {cfg : Config} {ext : Ext} {tr : List Msg} {s : PeerState}
    (h : Inv cfg ext tr s) {sp : NodePeer} (hok : MsgOk tr (.donePeer sp))
    (hip : sp.inbound = true → sp.persistent = false) (l : PeerList) :
    sp.id ∉ (Pod.Node.handleDonePeerMsg ext s sp).list l := by
  intro hm
  obtain ⟨p, hp⟩ := Option.isSome_iff_exists.mp (AList.lookup_isSome.mpr hm)
  unfold Pod.Node.handleDonePeerMsg at hp
  dsimp only at hp
  by_cases hin : sp.id ∈ s.list (donePeerList sp)
  · rw [if_pos hin] at hp
    by_cases hl : l = donePeerList sp
    · subst hl; simp [AList.lookup_erase] at hp
    · obtain ⟨hid, hpl, hadd⟩ := h.placed _ _ _ (lookup_setList_erase hp)
      obtain ⟨hi, hpe, -⟩ := hok.static sp p rfl (List.mem_filterMap.mpr ⟨_, hadd, rfl⟩) hid
      refine hl (hpl.symm.trans ?_)
      rw [donePeerList_eq_addPeerList hip, addPeerList, addPeerList, hi, hpe]
  · rw [if_neg hin] at hp
    obtain ⟨hid, hpl, hadd⟩ := h.placed _ _ _ hp
    obtain ⟨hi, hpe, -⟩ := hok.static sp p rfl (List.mem_filterMap.mpr ⟨_, hadd, rfl⟩) hid
    have : addPeerList p = donePeerList sp := by
      rw [donePeerList_eq_addPeerList hip, addPeerList, addPeerList, hi, hpe]
    exact hin (AList.lookup_isSome.mp (by rw [← this, hpl]; simp [hp]))

/-- **A peer stays only until its done message**: in every reachable state, a peer in any
map was offered by a message after which no done message for it was handled. -/
theorem Reachable.liveSince {cfg : Config} {ext : Ext}
    {resolve : GoString → Except String NetAddress} {tr : List (Env × Msg)} {s : PeerState}
    (hr : Reachable cfg ext resolve tr s) (ha : Admissible (tr.map Prod.snd))
    (hip : ∀ m ∈ tr.map Prod.snd, ∀ p, m.peer? = some p → p.inbound = true → p.persistent = false)
    {l : PeerList} {k : Nat} (hk : k ∈ s.list l) : LiveSince k (tr.map Prod.snd) := by
  induction hr generalizing l k with
  | empty => cases l <;> cases hk
  | @step tr s s₀ s' env m r hr hre hm ih =>
    rw [List.map_append, List.map_singleton] at ha hip ⊢
    have ha' := ha.of_snoc
    obtain ⟨p, hp⟩ := Option.isSome_iff_exists.mp (AList.lookup_isSome.mpr hk)
    rcases handleMsg_lookup hm hp with hp₀ | ⟨rfl, rfl⟩
    · have hks : k ∈ s.list l :=
        (AList.mem_of_perm (hre.1 l)).mp (AList.lookup_isSome.mp (by simp [hp₀]))
      refine (ih ha'.1 (fun m hm => hip m (List.mem_append_left _ hm)) hks).snoc m ?_
      rintro sp rfl rfl
      cases hm
      exact ((hr.inv ha'.1).reorder hre).done_absent ha'.2
        (hip _ (List.mem_append_right _ (List.mem_singleton_self _)) sp rfl) l hk
    · exact ⟨p, _, [], rfl, rfl, fun _ h => by cases h⟩

/-! ### The select loop -/

/-- The channels of `PeerHandler`'s select that carry the messages above. -/
inductive Chan where
  | newPeers
  | donePeers
  | banPeers
  | query
  deriving DecidableEq, Repr

/-- The channel a message is sent on. -/
def Msg.chan : Msg → Chan
  | .newPeer _ => .newPeers
  | .donePeer _ => .donePeers
  | .banPeer _ => .banPeers
  | .query _ => .query

/-- `NewNode` makes `NewPeers`, `DonePeers` and `BanPeers` with `MaxPeers` slots; `Query` is
unbuffered, so each pending query is a sender blocked in its send. -/
def Chan.capacity (cfg : Config) : Chan → Option Nat
  | .query => none
  | _ => some cfg.maxPeers

/-- The node around `PeerHandler`: its state, the messages pending in each channel (oldest
first), and the messages it has handled, in order. -/
structure PeerLoop where
  state : PeerState
  pending : Chan → List Msg
  handled : List Msg

/-- Nothing sent, nothing handled. -/
def PeerLoop.init : PeerLoop := ⟨.empty, fun _ => [], []⟩

/-- A send by another goroutine (`AddPeer`, `PeerDoneHandler`, `BanPeer`, a query), or one
turn of the select: any channel with a pending message, its oldest message handled after the
runtime picks the maps' iteration order. -/
inductive PeerLoop.Step (cfg : Config) (ext : Ext) (resolve : GoString → Except String NetAddress) :
    PeerLoop → PeerLoop → Prop
  | send {n : PeerLoop} (m : Msg)
      (hcap : ∀ c, m.chan.capacity cfg = some c → (n.pending m.chan).length < c) :
      PeerLoop.Step cfg ext resolve n
        { n with pending := Function.update n.pending m.chan (n.pending m.chan ++ [m]) }
  | take {n : PeerLoop} (c : Chan) {m : Msg} {rest : List Msg} (env : Env) {s₀ s' : PeerState}
      {r : Option Reply} (hc : n.pending c = m :: rest) (hre : n.state.Reorder s₀)
      (hm : handleMsg cfg ext resolve env s₀ m = some (s', r)) :
      PeerLoop.Step cfg ext resolve n ⟨s', Function.update n.pending c rest, n.handled ++ [m]⟩

/-- The handler's side of a run of the node is a run of `PeerHandler` over the messages it
took. -/
theorem PeerLoop.reachable {cfg : Config} {ext : Ext} {resolve : GoString → Except String NetAddress}
    {n : PeerLoop} (h : Relation.ReflTransGen (PeerLoop.Step cfg ext resolve) PeerLoop.init n) :
    ∃ tr, Reachable cfg ext resolve tr n.state ∧ tr.map Prod.snd = n.handled := by
  induction h with
  | refl => exact ⟨[], .empty, rfl⟩
  | tail _ hs ih =>
    obtain ⟨tr, htr, he⟩ := ih
    cases hs with
    | send m _ => exact ⟨tr, htr, he⟩
    | take c env hc hre hm => exact ⟨tr ++ [(env, _)], htr.step hre hm, by simp [he]⟩

/-! ### Consistency and liveness over the loop's runs -/

/-- **The peer maps stay consistent**, in every state `PeerHandler` reaches by admissible
messages taken in any order, and so in every run of the node's select loop whose handled
messages are admissible: the inbound, outbound and persistent maps have pairwise disjoint keys,
`Count()` is at most `MaxPeers`, and `OutboundGroups[g]` counts the outbound and persistent
peers of group `g`. -/
theorem peerState_consistent {cfg : Config} {ext : Ext}
    {resolve : GoString → Except String NetAddress} :
    (∀ {tr : List (Env × Msg)} {s : PeerState}, Reachable cfg ext resolve tr s →
      Admissible (tr.map Prod.snd) → PeerConsistent cfg ext s) ∧
    ∀ {n : PeerLoop}, Relation.ReflTransGen (PeerLoop.Step cfg ext resolve) PeerLoop.init n →
      Admissible n.handled → PeerConsistent cfg ext n.state := by
  refine ⟨fun hr ha => hr.consistent ha, fun hn ha => ?_⟩
  obtain ⟨tr, hr, he⟩ := PeerLoop.reachable hn
  exact hr.consistent (he ▸ ha)

/-- **A peer stays only until its done message**, in every state `PeerHandler` reaches by
admissible messages taken in any order, and so in every run of the node's select loop: a peer
in any map was offered by a message after which no done message for it was handled, when no
peer offered is both inbound and persistent. -/
theorem peerLoop_liveSince {cfg : Config} {ext : Ext}
    {resolve : GoString → Except String NetAddress} :
    (∀ {tr : List (Env × Msg)} {s : PeerState}, Reachable cfg ext resolve tr s →
      Admissible (tr.map Prod.snd) →
      (∀ m ∈ tr.map Prod.snd, ∀ p, m.peer? = some p → p.inbound = true → p.persistent = false) →
      ∀ l k, k ∈ s.list l → LiveSince k (tr.map Prod.snd)) ∧
    ∀ {n : PeerLoop}, Relation.ReflTransGen (PeerLoop.Step cfg ext resolve) PeerLoop.init n →
      Admissible n.handled →
      (∀ m ∈ n.handled, ∀ p, m.peer? = some p → p.inbound = true → p.persistent = false) →
      ∀ l k, k ∈ n.state.list l → LiveSince k n.handled := by
  refine ⟨fun hr ha hip _ _ hk => hr.liveSince ha hip hk, fun hn ha hip _ _ hk => ?_⟩
  obtain ⟨tr, hr, he⟩ := PeerLoop.reachable hn
  rw [← he] at ha hip ⊢
  exact hr.liveSince ha hip hk

/-! ### A run of the select loop -/

/-- An outbound peer, persistent or not, its version known. -/
def loopPeer (id : Nat) (addr host : String) (persistent : Bool) : NodePeer :=
  ⟨id, .ofAscii addr, .ofAscii "10.0.0.9:8333", ⟨.ofAscii host, 8333⟩, false, persistent, true,
    true, true, none, []⟩

/-- Peers `1` and `2` and a persistent peer `3` are offered; `DisconnectNode` removes peer `1`;
then peer `2` disconnects, and peer `1`'s done message arrives after the query removed it. -/
def loopMsgs : List Msg :=
  [.newPeer (loopPeer 1 "10.0.0.1:8333" "10.0.0.1" false),
    .newPeer (loopPeer 2 "10.0.0.2:8333" "10.0.0.2" false),
    .newPeer (loopPeer 3 "10.0.0.3:8333" "10.0.0.3" true),
    .query (.disconnectNode fun p => p.id == 1),
    .donePeer (loopPeer 2 "10.0.0.2:8333" "10.0.0.2" false),
    .donePeer (loopPeer 1 "10.0.0.1:8333" "10.0.0.1" false)]

/-- The select loop takes each of `loopMsgs` as soon as it is sent; the messages are admissible,
and peer `3` is left, in `PersistentPeers` only. -/
theorem loopMsgs_run :
    ∃ n, Relation.ReflTransGen (PeerLoop.Step ⟨8, 0⟩ ⟨some, NetAddress.ip⟩ fun _ => .error "")
        PeerLoop.init n ∧ n.handled = loopMsgs ∧ Admissible n.handled ∧
      (n.state.list .persistent).keys = [3] ∧ (n.state.list .outbound).keys = [] ∧
      (n.state.list .inbound).keys = [] := by
  refine ⟨_, .tail (.tail (.tail (.tail (.tail (.tail (.tail (.tail (.tail (.tail (.tail (.tail .refl
    (.send (.newPeer (loopPeer 1 "10.0.0.1:8333" "10.0.0.1" false)) ?_))
    (.take .newPeers ⟨0, false⟩ rfl (.refl _) rfl))
    (.send (.newPeer (loopPeer 2 "10.0.0.2:8333" "10.0.0.2" false)) ?_))
    (.take .newPeers ⟨0, false⟩ rfl (.refl _) rfl))
    (.send (.newPeer (loopPeer 3 "10.0.0.3:8333" "10.0.0.3" true)) ?_))
    (.take .newPeers ⟨0, false⟩ rfl (.refl _) rfl))
    (.send (.query (.disconnectNode fun p => p.id == 1)) ?_))
    (.take .query ⟨0, false⟩ rfl (.refl _) rfl))
    (.send (.donePeer (loopPeer 2 "10.0.0.2:8333" "10.0.0.2" false)) ?_))
    (.take .donePeers ⟨0, false⟩ rfl (.refl _) rfl))
    (.send (.donePeer (loopPeer 1 "10.0.0.1:8333" "10.0.0.1" false)) ?_))
    (.take .donePeers ⟨0, false⟩ rfl (.refl _) rfl),
    rfl, Admissible.of_check (by decide), ?_, ?_, ?_⟩
  any_goals (intro c hc; first | (cases hc; decide) | cases hc)
  -- the `DisconnectNode` loop finds nothing after peer `1`
  all_goals
    simp only [PeerState.list]
    rw [disconnectOutbound_of_none]
    · decide
    · rfl

/-- The first key of a map is one of its keys. -/
theorem mem_of_keys_eq_cons {m : GoMap Nat NodePeer} {k : Nat} {ks : List Nat}
    (h : m.keys = k :: ks) : k ∈ m :=
  AList.mem_keys.mpr (h ▸ List.mem_cons_self _ _)

/-- In the run of `loopMsgs`, the maps are consistent, with peer `3` left. -/
theorem peerState_consistent_loopMsgs :
    ∃ n, Relation.ReflTransGen (PeerLoop.Step ⟨8, 0⟩ ⟨some, NetAddress.ip⟩ fun _ => .error "")
        PeerLoop.init n ∧ n.handled = loopMsgs ∧ (n.state.list .persistent).keys = [3] ∧
      PeerConsistent ⟨8, 0⟩ ⟨some, NetAddress.ip⟩ n.state := by
  obtain ⟨n, hn, hh, ha, hp, -, -⟩ := loopMsgs_run
  exact ⟨n, hn, hh, hp, peerState_consistent.2 hn ha⟩

/-- In the run of `loopMsgs`, peer `3`, left in `PersistentPeers`, is live since its offer. -/
theorem peerLoop_liveSince_loopMsgs :
    ∃ n, Relation.ReflTransGen (PeerLoop.Step ⟨8, 0⟩ ⟨some, NetAddress.ip⟩ fun _ => .error "")
        PeerLoop.init n ∧ n.handled = loopMsgs ∧ 3 ∈ n.state.list .persistent ∧
      LiveSince 3 n.handled := by
  obtain ⟨n, hn, hh, ha, hp, -, -⟩ := loopMsgs_run
  have hip : ∀ m ∈ n.handled, ∀ p, m.peer? = some p → p.inbound = true → p.persistent = false := by
    rw [hh]
    intro m hm p hp hi
    simp only [loopMsgs, List.mem_cons, List.mem_nil_iff, or_false] at hm
    rcases hm with rfl | rfl | rfl | rfl | rfl | rfl <;> cases hp <;> cases hi
  exact ⟨n, hn, hh, mem_of_keys_eq_cons hp,
    peerLoop_liveSince.2 hn ha hip .persistent 3 (mem_of_keys_eq_cons hp)⟩

/-- **A done peer comes back**: an outbound peer is offered and then disconnects, so its add
and its done message are both pending; the select takes the done message first, which finds
nothing to remove, and then the add message, which inserts the peer.  The peer is in
`OutboundPeers` in a state after its done message was handled. -/
theorem peerHandler_done_before_add :
    let p : NodePeer := ⟨1, .ofAscii "10.0.0.1:8333", .ofAscii "10.0.0.2:8333",
      ⟨.ofAscii "10.0.0.1", 8333⟩, false, false, true, true, false, none, []⟩
    ∃ n, Relation.ReflTransGen (PeerLoop.Step ⟨8, 0⟩ ⟨some, NetAddress.ip⟩ fun _ => .error "")
        PeerLoop.init n ∧
      n.handled = [.donePeer p, .newPeer p] ∧ p.id ∈ n.state.outboundPeers := by
  intro p
  refine ⟨_, .tail (.tail (.tail (.tail .refl (.send (.newPeer p) ?_)) (.send (.donePeer p) ?_))
    (.take .donePeers ⟨0, false⟩ rfl (.refl _) rfl)) (.take .newPeers ⟨0, false⟩ rfl (.refl _) rfl),
    rfl, by decide⟩
  all_goals intro c hc; cases hc; decide

end Pod.Node
