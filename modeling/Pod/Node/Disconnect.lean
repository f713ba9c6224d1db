import Pod.Node.PeerState

/-!
# Node — `DisconnectNodeMsg`

`HandleQuery` answers `DisconnectNodeMsg` with one `DisconnectPeer` over the inbound peers and,
when that finds nothing, `DisconnectPeer` over the outbound peers repeated until it finds
nothing, each found peer's group count decremented.  The loop deletes from the map it searches;
it ends because each round deletes one entry (`disconnectOutbound`'s `termination_by`).

* `filter_erase_of_lookup`: deleting a matched peer leaves the unmatched peers as they were.
* `disconnectOutbound_spec`: the loop leaves exactly the outbound peers `cmp` does not match,
  and lowers each group count by the number of matched peers of the group.
* `handleQuery_disconnectNode`: the handler returns, and either deletes one matching inbound peer
  and nothing else, or runs the outbound loop and replies `nil` exactly when it deleted a peer.
-/

namespace Pod.Node

open Pod

/-! ### One round -/

/-- **Deleting a matched peer** keeps the entries `cmp` does not match, in their order. -/
theorem filter_erase_of_lookup {cmp : NodePeer → Bool} {m : GoMap Nat NodePeer} {k : Nat}
    {sp : NodePeer} (hk : m.lookup k = some sp) (hsp : cmp sp = true) :
    (m.erase k).entries.filter (fun e => !cmp e.2) = m.entries.filter (fun e => !cmp e.2) := by
  rw [GoMap.entries_erase, List.filter_filter]
  refine List.filter_congr fun e he => ?_
  by_cases hek : e.1 = k
  · subst hek
    have he' : m.lookup e.1 = some e.2 := (List.mem_dlookup_iff m.nodupKeys).mpr he
    have : e.2 = sp := Option.some.inj (he'.symm.trans hk)
    simp [this, hsp]
  · simp [hek]

/-- A map in which `DisconnectPeer` finds nothing has no entry `cmp` matches. -/
theorem cmp_eq_false_of_disconnectPeer_none {cmp : NodePeer → Bool} {m m' : GoMap Nat NodePeer}
    (h : disconnectPeer m cmp = (none, m')) : ∀ e ∈ m.entries, cmp e.2 = false :=
  fun e he => (disconnectPeer_none h).2 e.1 e.2 ((List.mem_dlookup_iff m.nodupKeys).mpr he)

/-! ### The outbound loop -/

/-- **The outbound loop's result**: whatever order `DisconnectPeer` finds them in, the loop
deletes every outbound peer `cmp` matches and no other, and each group's count goes down by
the matched peers of that group. -/
theorem disconnectOutbound_spec (ext : Ext) (cmp : NodePeer → Bool) (out : GoMap Nat NodePeer)
    (groups : GoMap GoString Int) :
    (disconnectOutbound ext cmp out groups).1.entries = out.entries.filter (fun e => !cmp e.2) ∧
      ∀ g, (disconnectOutbound ext cmp out groups).2.getD g =
        groups.getD g - out.countP (fun p => cmp p && ext.groupKey p.na == g) := by
  induction out, groups using Pod.Node.disconnectOutbound.induct ext cmp with
  | case1 out groups sp out' hd _ ih =>
    obtain ⟨k, hk, hsp, rfl⟩ := disconnectPeer_some hd
    rw [disconnectOutbound_of_some groups hd]
    refine ⟨ih.1.trans (filter_erase_of_lookup hk hsp), fun g => ?_⟩
    have hc := GoMap.countP_erase_of_lookup (fun p => cmp p && ext.groupKey p.na == g) hk
    rw [ih.2 g, GoMap.getD_bump]
    by_cases hg : g = ext.groupKey sp.na
    · simp only [hg, hsp, beq_self_eq_true, Bool.and_self, if_true] at hc ⊢
      omega
    · have : (ext.groupKey sp.na == g) = false := beq_false_of_ne (Ne.symm hg)
      simp only [hg, hsp, this, Bool.and_false, if_false, Bool.false_eq_true] at hc ⊢
      omega
  | case2 out groups _ hd =>
    have hno := cmp_eq_false_of_disconnectPeer_none hd
    rw [disconnectOutbound_of_none groups hd]
    refine ⟨(List.filter_eq_self.mpr fun e he => by simp [hno e he]).symm, fun g => ?_⟩
    have : out.countP (fun p => cmp p && ext.groupKey p.na == g) = 0 :=
      List.countP_eq_zero.mpr fun e he => by simp [hno e he]
    rw [this, Int.ofNat_zero, Int.sub_zero]

/-! ### The handler -/

/-- With no inbound match, the handler is the outbound loop from the state's maps, and its reply
is `nil` when some outbound peer matches. -/
theorem handleQuery_disconnectNode_of_none (cfg : Config) (ext : Ext)
    (resolve : GoString → Except String NetAddress) {state : PeerState} {cmp : NodePeer → Bool}
    {inb : GoMap Nat NodePeer} (hin : disconnectPeer state.inboundPeers cmp = (none, inb)) :
    handleQuery cfg ext resolve state (.disconnectNode cmp) =
      some ({ state with
          outboundPeers := (disconnectOutbound ext cmp state.outboundPeers state.outboundGroups).1
          outboundGroups := (disconnectOutbound ext cmp state.outboundPeers state.outboundGroups).2 },
        if 0 < state.outboundPeers.countP cmp then .ok else .err "nodePeer not found") := by
  simp only [handleQuery, hin]
  split
  · rename_i sp out hd
    obtain ⟨k, hk, hsp, rfl⟩ := disconnectPeer_some hd
    have hc := GoMap.countP_erase_of_lookup cmp hk
    rw [if_pos (by simp only [hsp, if_true] at hc; omega), ← disconnectOutbound_of_some _ hd]
  · rename_i out hd
    have hc : state.outboundPeers.countP cmp = 0 :=
      List.countP_eq_zero.mpr fun e he => by simp [cmp_eq_false_of_disconnectPeer_none hd e he]
    rw [disconnectOutbound_of_none _ hd, hc]
    rfl

/-- **`DisconnectNodeMsg`**: for every state and every `cmp`, `HandleQuery` returns.  When an
inbound peer matches, one matching inbound peer is deleted and the state is otherwise the same;
when none does, the outbound peers `cmp` matches are all deleted and the others kept, each
group count goes down by the deleted peers of the group, the inbound, persistent and banned maps
are untouched, and the reply is `nil` exactly when an outbound peer matched. -/
theorem handleQuery_disconnectNode (cfg : Config) (ext : Ext)
    (resolve : GoString → Except String NetAddress) (state : PeerState) (cmp : NodePeer → Bool) :
    ∃ s' r, handleQuery cfg ext resolve state (.disconnectNode cmp) = some (s', r) ∧
      ((∃ k p, state.inboundPeers.lookup k = some p ∧ cmp p = true ∧
          s' = { state with inboundPeers := state.inboundPeers.erase k } ∧ r = .ok) ∨
        ((∀ k p, state.inboundPeers.lookup k = some p → cmp p = false) ∧
          s'.outboundPeers.entries = state.outboundPeers.entries.filter (fun e => !cmp e.2) ∧
          (∀ g, s'.outboundGroups.getD g = state.outboundGroups.getD g -
            state.outboundPeers.countP (fun p => cmp p && ext.groupKey p.na == g)) ∧
          s'.inboundPeers = state.inboundPeers ∧ s'.persistentPeers = state.persistentPeers ∧
          s'.banned = state.banned ∧
          r = if 0 < state.outboundPeers.countP cmp then .ok else .err "nodePeer not found")) := by
  rcases hin : disconnectPeer state.inboundPeers cmp with ⟨_ | sp, inb⟩
  · have hspec := disconnectOutbound_spec ext cmp state.outboundPeers state.outboundGroups
    exact ⟨_, _, handleQuery_disconnectNode_of_none cfg ext resolve hin,
      .inr ⟨(disconnectPeer_none hin).2, hspec.1, hspec.2, rfl, rfl, rfl, rfl⟩⟩
  · obtain ⟨k, hk, hsp, rfl⟩ := disconnectPeer_some hin
    refine ⟨_, _, ?_, .inl ⟨k, sp, hk, hsp, rfl, rfl⟩⟩
    simp only [handleQuery, hin]

end Pod.Node
