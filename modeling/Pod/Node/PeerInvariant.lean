import Pod.Node.PeerState

/-!
# Node — the peer maps stay consistent

`PeerHandler` owns a `PeerState` and changes it only in `handleMsg`.  A range over a Go map
visits the entries in an order the runtime picks anew each time, so before each message the
maps may be reordered (`PeerState.Reorder`); `DisconnectPeer` then removes whichever match
comes first.

**Consistency** (`Reachable.consistent`).  In every state reachable from `PeerState.empty`
by messages that satisfy `Admissible` — a peer keeps its ID-determined `Inbound()`,
`Persistent` and `NA()`, is offered to `HandleAddPeerMsg` at most once and only once its
version is known, and its version stays known — the three peer maps have disjoint key sets,
`Count()` is at most `MaxPeers`, and `OutboundGroups[k]` is the number of outbound and
persistent peers of group `k`.

The proof carries `Inv`: `Placed` (each entry is keyed by its peer's ID, sits in the map
`HandleAddPeerMsg` chose for it, and was offered by a message of the run), the bound, and the
group counts.  Each handler keeps `Inv` (one lemma each); disjointness follows from `Placed`
and the single offer.
-/

namespace Pod.Node

open Pod

/-- `Inbound()`, `Persistent` and `NA()` agree: what stays fixed over a peer's life. -/
def NodePeer.SameStatic (p q : NodePeer) : Prop :=
  p.inbound = q.inbound ∧ p.persistent = q.persistent ∧ p.na = q.na

/-- The assumptions on the message `m` that follows the messages `tr`. -/
structure MsgOk (tr : List Msg) (m : Msg) : Prop where
  static : ∀ p q, m.peer? = some p → q ∈ tr.filterMap Msg.peer? → q.id = p.id → q.SameStatic p
  versionKnown : ∀ p q, m.peer? = some p → (Msg.newPeer q ∈ tr ∨ m = .newPeer q) →
    q.id = p.id → p.versionKnown = true
  addOnce : ∀ p q, m = .newPeer p → Msg.newPeer q ∈ tr → q.id ≠ p.id

/-- A run's messages, each satisfying `MsgOk` after the ones before it. -/
inductive Admissible : List Msg → Prop
  | nil : Admissible []
  | snoc {tr : List Msg} {m : Msg} : Admissible tr → MsgOk tr m → Admissible (tr ++ [m])

/-- `s'` is `s` with its peer maps ranged in another order. -/
def PeerState.Reorder (s s' : PeerState) : Prop :=
  (∀ l, (s'.list l).entries.Perm (s.list l).entries) ∧ s'.banned = s.banned ∧
    s'.outboundGroups = s.outboundGroups

theorem PeerState.Reorder.refl (s : PeerState) : s.Reorder s := ⟨fun _ => .refl _, rfl, rfl⟩

section Run

variable (cfg : Config) (ext : Ext) (resolve : GoString → Except String NetAddress)

/-- The states `PeerHandler` reaches from `PeerState.empty`, with the messages it took. -/
inductive Reachable : List (Env × Msg) → PeerState → Prop
  | empty : Reachable [] .empty
  | step {tr : List (Env × Msg)} {s s₀ s' : PeerState} {env : Env} {m : Msg} {r : Option Reply} :
      Reachable tr s → s.Reorder s₀ → handleMsg cfg ext resolve env s₀ m = some (s', r) →
      Reachable (tr ++ [(env, m)]) s'

end Run

/-- Every entry is keyed by its peer's ID, sits in the map `HandleAddPeerMsg` chose, and was
offered by a message of `tr`. -/
def Placed (tr : List Msg) (s : PeerState) : Prop :=
  ∀ l k p, (s.list l).lookup k = some p → p.id = k ∧ addPeerList p = l ∧ Msg.newPeer p ∈ tr

/-- The outbound and persistent peers whose address has group key `g`. -/
def groupCount (ext : Ext) (s : PeerState) (g : GoString) : Nat :=
  s.outboundPeers.countP (fun p => ext.groupKey p.na == g) +
    s.persistentPeers.countP (fun p => ext.groupKey p.na == g)

/-- What every reachable state satisfies. -/
structure Inv (cfg : Config) (ext : Ext) (tr : List Msg) (s : PeerState) : Prop where
  placed : Placed tr s
  bounded : s.count ≤ cfg.maxPeers
  groups : ∀ g, s.outboundGroups.getD g = (groupCount ext s g : Int)

/-! ### The state's parts -/

namespace PeerState

@[simp] theorem list_withGroups (s : PeerState) (g : GoMap GoString Int) (l : PeerList) :
    ({ s with outboundGroups := g } : PeerState).list l = s.list l := by cases l <;> rfl

@[simp] theorem list_withBanned (s : PeerState) (b : GoMap GoString Time) (l : PeerList) :
    ({ s with banned := b } : PeerState).list l = s.list l := by cases l <;> rfl

theorem count_eq (s : PeerState) :
    s.count = (s.list .inbound).len + (s.list .outbound).len + (s.list .persistent).len := rfl

theorem count_setList (s : PeerState) (l : PeerList) (m : GoMap Nat NodePeer) :
    (s.setList l m).count + (s.list l).len = s.count + m.len := by
  cases l <;> simp only [count, setList, list] <;> omega

end PeerState

theorem groupCount_eq (ext : Ext) (s : PeerState) (g : GoString) :
    groupCount ext s g = (s.list .outbound).countP (fun p => ext.groupKey p.na == g) +
      (s.list .persistent).countP (fun p => ext.groupKey p.na == g) := rfl

@[simp] theorem groupCount_withGroups (ext : Ext) (s : PeerState) (x : GoMap GoString Int) (g) :
    groupCount ext { s with outboundGroups := x } g = groupCount ext s g := rfl

@[simp] theorem groupCount_setList_inbound (ext : Ext) (s : PeerState) (m) (g) :
    groupCount ext (s.setList .inbound m) g = groupCount ext s g := rfl

/-- Replacing an outbound or persistent map changes the group count by the difference of the
two maps' counts. -/
theorem groupCount_setList (ext : Ext) (s : PeerState) {l : PeerList} (hl : l ≠ .inbound)
    (m : GoMap Nat NodePeer) (g : GoString) :
    groupCount ext (s.setList l m) g + (s.list l).countP (fun p => ext.groupKey p.na == g) =
      groupCount ext s g + m.countP (fun p => ext.groupKey p.na == g) := by
  cases l
  · exact absurd rfl hl
  all_goals simp only [groupCount, PeerState.setList, PeerState.list]; omega

/-- `addPeerList` picks the inbound map exactly for inbound peers. -/
theorem addPeerList_eq_inbound {p : NodePeer} : addPeerList p = .inbound ↔ p.inbound = true := by
  unfold addPeerList; split_ifs <;> simp_all

/-! ### `Placed` under reordering, removal and a longer run -/

theorem Placed.mono {tr tr' : List Msg} {s : PeerState} (h : Placed tr s) (ht : tr ⊆ tr') :
    Placed tr' s := fun l k p hk =>
  let ⟨h₁, h₂, h₃⟩ := h l k p hk
  ⟨h₁, h₂, ht h₃⟩

/-- A state whose every entry is an entry of a placed state is placed. -/
theorem Placed.of_sub {tr : List Msg} {s s' : PeerState} (h : Placed tr s)
    (hs : ∀ l k p, (s'.list l).lookup k = some p → (s.list l).lookup k = some p) :
    Placed tr s' := fun l k p hk => h l k p (hs l k p hk)

theorem lookup_of_lookup_erase {m : GoMap Nat NodePeer} {k k' : Nat} {p : NodePeer}
    (h : (m.erase k).lookup k' = some p) : m.lookup k' = some p := by
  by_cases hk : k' = k
  · subst hk; simp [AList.lookup_erase] at h
  · rwa [AList.lookup_erase_ne hk] at h

theorem Inv.reorder {cfg : Config} {ext : Ext} {tr : List Msg} {s s' : PeerState}
    (h : Inv cfg ext tr s) (hr : s.Reorder s') : Inv cfg ext tr s' := by
  obtain ⟨hl, hb, hg⟩ := hr
  refine ⟨h.placed.of_sub fun l k p hk => ?_, ?_, fun g => ?_⟩
  · rwa [AList.perm_lookup (hl l)] at hk
  · have := h.bounded
    simp only [PeerState.count_eq, GoMap.len, (hl _).length_eq] at this ⊢
    exact this
  · rw [hg, h.groups g, groupCount_eq, groupCount_eq]
    simp only [GoMap.countP, ((hl _).countP_eq _)]

/-! ### One lemma per handler -/

section Steps

variable {cfg : Config} {ext : Ext} {tr : List Msg} {s : PeerState}

theorem Inv.mono {tr' : List Msg} (h : Inv cfg ext tr s) (ht : tr ⊆ tr') : Inv cfg ext tr' s :=
  ⟨h.placed.mono ht, h.bounded, h.groups⟩

theorem Inv.snoc (h : Inv cfg ext tr s) (m : Msg) : Inv cfg ext (tr ++ [m]) s :=
  h.mono (List.subset_append_left _ _)

theorem Inv.withBanned (h : Inv cfg ext tr s) (b : GoMap GoString Time) :
    Inv cfg ext tr { s with banned := b } :=
  ⟨h.placed.of_sub fun l k p hk => by simpa using hk, h.bounded, h.groups⟩

/-- The entries left after a deletion from one map are entries of the state before. -/
theorem lookup_setList_erase {s : PeerState} {x : GoMap GoString Int} {l l' : PeerList}
    {k k' : Nat} {p : NodePeer}
    (h : ((({ s with outboundGroups := x } : PeerState).setList l ((s.list l).erase k)).list l').lookup k' = some p) :
    (s.list l').lookup k' = some p := by
  by_cases hl : l' = l
  · subst hl; simp only [PeerState.list_setList_self] at h; exact lookup_of_lookup_erase h
  · simpa [hl] using h

/-- Deleting an entry `p` of map `l`, with `p`'s group count decremented when `l` is not the
inbound map, keeps `Inv`. -/
theorem Inv.erase (h : Inv cfg ext tr s) {l : PeerList} {k : Nat} {p : NodePeer}
    (hk : (s.list l).lookup k = some p) {x : GoMap GoString Int}
    (hx : x = if l = .inbound then s.outboundGroups
      else s.outboundGroups.bump (ext.groupKey p.na) (-1)) :
    Inv cfg ext tr (({ s with outboundGroups := x } : PeerState).setList l ((s.list l).erase k)) := by
  refine ⟨h.placed.of_sub fun _ _ _ => lookup_setList_erase, ?_, fun g => ?_⟩
  · have h₁ := PeerState.count_setList ({ s with outboundGroups := x } : PeerState) l
      ((s.list l).erase k)
    have h₂ := len_erase_of_lookup hk
    have h₃ := h.bounded
    simp only [PeerState.list_withGroups] at h₁
    simp only [PeerState.count] at h₁ h₃ ⊢
    omega
  · have hc := GoMap.countP_erase_of_lookup (fun q => ext.groupKey q.na == g) hk
    by_cases hl : l = .inbound
    · subst hl hx; simpa using h.groups g
    · have hs := groupCount_setList ext ({ s with outboundGroups := x } : PeerState) hl
        ((s.list l).erase k) g
      rw [if_neg hl] at hx; subst hx
      simp only [PeerState.list_withGroups, groupCount_withGroups] at hs
      simp only [PeerState.outboundGroups_setList, GoMap.getD_bump, h.groups g]
      by_cases hg : ext.groupKey p.na = g
      · subst hg; simp only [beq_self_eq_true, if_true] at hc ⊢; omega
      · simp only [beq_iff_eq, hg, Ne.symm hg, if_false] at hc ⊢; omega

/-- An entry after `admitPeer`, on a state with `s`'s maps, is one of `s`'s, or the peer
admitted, under its ID in the map `HandleAddPeerMsg` chose. -/
theorem admitPeer_lookup {t : PeerState} (ht : ∀ l, t.list l = s.list l) {sp : NodePeer}
    {l : PeerList} {k : Nat} {p : NodePeer}
    (hk : ((admitPeer cfg ext t sp).1.list l).lookup k = some p) :
    (s.list l).lookup k = some p ∨ (sp = p ∧ p.id = k ∧ addPeerList sp = l) := by
  unfold admitPeer at hk
  by_cases hfull : cfg.maxPeers ≤ t.count
  · rw [if_pos hfull, ht] at hk; exact .inl hk
  rw [if_neg hfull] at hk
  by_cases hl : l = addPeerList sp
  · subst hl
    simp only [PeerState.list_setList_self] at hk
    by_cases hkk : k = sp.id
    · subst hkk; rw [AList.lookup_insert] at hk; cases hk; exact .inr ⟨rfl, rfl, rfl⟩
    · rw [AList.lookup_insert_ne hkk, ht] at hk; exact .inl hk
  · simp only [PeerState.list_setList_ne _ _ hl, PeerState.list_withGroups, ht] at hk
    exact .inl hk

/-- Inserting a peer whose ID no map holds, below the limit, keeps `Inv`. -/
theorem Inv.admitPeer (h : Inv cfg ext tr s) {sp : NodePeer} (hnew : ∀ l, sp.id ∉ s.list l) :
    Inv cfg ext (tr ++ [.newPeer sp]) (admitPeer cfg ext s sp).1 := by
  have hplaced : Placed (tr ++ [.newPeer sp]) (Pod.Node.admitPeer cfg ext s sp).1 :=
    fun l k p hk => by
      rcases admitPeer_lookup (fun _ => rfl) hk with hk | ⟨rfl, rfl, rfl⟩
      · exact h.placed.mono (List.subset_append_left _ _) _ k _ hk
      · exact ⟨rfl, rfl, by simp⟩
  unfold Pod.Node.admitPeer at hplaced ⊢
  by_cases hfull : cfg.maxPeers ≤ s.count
  · rw [if_pos hfull]; exact h.snoc _
  rw [if_neg hfull] at hplaced ⊢
  dsimp only at hplaced ⊢
  have hlen : GoMap.len ((s.list (addPeerList sp)).insert sp.id sp) =
      GoMap.len (s.list (addPeerList sp)) + 1 := by
    simp only [GoMap.len, AList.insert_entries_of_neg (hnew _), List.length_cons]
  generalize hx : (if sp.inbound = true then s.outboundGroups
    else s.outboundGroups.bump (ext.groupKey sp.na) 1) = x at hplaced ⊢
  refine ⟨hplaced, ?_, fun g => ?_⟩
  · have h₁ := PeerState.count_setList ({ s with outboundGroups := x } : PeerState) (addPeerList sp)
      ((s.list (addPeerList sp)).insert sp.id sp)
    simp only [PeerState.list_withGroups, hlen] at h₁
    simp only [PeerState.count] at h₁ hfull ⊢
    omega
  · have hc : GoMap.countP (fun q => ext.groupKey q.na == g)
        ((s.list (addPeerList sp)).insert sp.id sp) =
        GoMap.countP (fun q => ext.groupKey q.na == g) (s.list (addPeerList sp)) +
          if ext.groupKey sp.na == g then 1 else 0 :=
      GoMap.countP_insert_of_not_mem _ sp (hnew (addPeerList sp))
    by_cases hi : sp.inbound = true
    · have hl : addPeerList sp = .inbound := addPeerList_eq_inbound.mpr hi
      rw [if_pos hi] at hx; subst hx
      simp only [hl, PeerState.outboundGroups_setList, groupCount_setList_inbound,
        groupCount_withGroups, h.groups g]
    · have hl : addPeerList sp ≠ .inbound := mt addPeerList_eq_inbound.mp hi
      rw [if_neg hi] at hx; subst hx
      have hs := groupCount_setList ext
        ({ s with outboundGroups := s.outboundGroups.bump (ext.groupKey sp.na) 1 } : PeerState) hl
        ((s.list (addPeerList sp)).insert sp.id sp) g
      simp only [PeerState.list_withGroups, groupCount_withGroups, hc] at hs
      simp only [PeerState.outboundGroups_setList, GoMap.getD_bump, h.groups g]
      by_cases hg : ext.groupKey sp.na = g
      · subst hg; simp only [beq_self_eq_true, if_true] at hs ⊢; omega
      · simp only [beq_iff_eq, hg, Ne.symm hg, if_false] at hs ⊢; omega

/-- A peer offered once has an ID no map holds. -/
theorem Inv.not_mem_of_addOnce (h : Inv cfg ext tr s) {sp : NodePeer}
    (hok : MsgOk tr (.newPeer sp)) (l : PeerList) : sp.id ∉ s.list l := by
  intro hm
  obtain ⟨p, hp⟩ := Option.isSome_iff_exists.mp (AList.lookup_isSome.mpr hm)
  obtain ⟨hid, -, hadd⟩ := h.placed l _ p hp
  exact hok.addOnce sp p rfl hadd hid

theorem Inv.handleAddPeerMsg (h : Inv cfg ext tr s) {env : Env} {sp : NodePeer}
    (hok : MsgOk tr (.newPeer sp)) :
    Inv cfg ext (tr ++ [.newPeer sp]) (handleAddPeerMsg cfg ext env s sp).1 := by
  unfold Pod.Node.handleAddPeerMsg
  split_ifs
  · exact h.snoc _
  split
  · exact h.snoc _
  split
  · split_ifs
    · exact h.snoc _
    · exact (h.withBanned _).admitPeer fun l => by
        simpa using h.not_mem_of_addOnce hok l
  · exact h.admitPeer (h.not_mem_of_addOnce hok)

theorem Inv.handleBanPeerMsg (h : Inv cfg ext tr s) {env : Env} (m : Msg) (sp : NodePeer) :
    Inv cfg ext (tr ++ [m]) (handleBanPeerMsg cfg ext env s sp) := by
  unfold Pod.Node.handleBanPeerMsg
  split
  · exact h.snoc _
  · exact (h.withBanned _).snoc _

theorem Inv.handleDonePeerMsg (h : Inv cfg ext tr s) {sp : NodePeer}
    (hok : MsgOk tr (.donePeer sp)) :
    Inv cfg ext (tr ++ [.donePeer sp]) (handleDonePeerMsg ext s sp) := by
  unfold Pod.Node.handleDonePeerMsg
  dsimp only
  by_cases hm : sp.id ∈ s.list (donePeerList sp)
  · rw [if_pos hm]
    obtain ⟨p, hp⟩ := Option.isSome_iff_exists.mp (AList.lookup_isSome.mpr hm)
    obtain ⟨hid, hpl, hadd⟩ := h.placed _ _ p hp
    have hst : p.SameStatic sp :=
      hok.static sp p rfl (List.mem_filterMap.mpr ⟨_, hadd, rfl⟩) hid
    have hvk : sp.versionKnown = true := hok.versionKnown sp p rfl (.inl hadd) hid
    refine (h.erase hp ?_).snoc _
    obtain ⟨hin, -, hna⟩ := hst
    by_cases hi : p.inbound = true
    · simp [← hpl, addPeerList_eq_inbound.mpr hi, ← hin, hi]
    · simp [← hpl, mt addPeerList_eq_inbound.mp hi, ← hin, hi, hvk, hna]
  · rw [if_neg hm]; exact h.snoc _

/-- The `DisconnectNodeMsg` loop over the outbound peers keeps `Inv`. -/
theorem Inv.disconnectOutbound (cmp : NodePeer → Bool) (out : GoMap Nat NodePeer)
    (groups : GoMap GoString Int) :
    ∀ {s : PeerState}, Inv cfg ext tr s → s.outboundPeers = out → s.outboundGroups = groups →
      Inv cfg ext tr { s with
        outboundPeers := (disconnectOutbound ext cmp out groups).1
        outboundGroups := (disconnectOutbound ext cmp out groups).2 } := by
  induction out, groups using Pod.Node.disconnectOutbound.induct ext cmp with
  | case1 out groups sp out' hd _ ih =>
    intro s h ho hg
    rw [disconnectOutbound_of_some groups hd]
    obtain ⟨k, hk, -, rfl⟩ := disconnectPeer_some hd
    have h₁ := h.erase (l := .outbound) (by rw [PeerState.list, ho]; exact hk)
      (x := groups.bump (ext.groupKey sp.na) (-1)) (by simp [hg])
    have h₂ := ih h₁ (by simp [PeerState.setList, PeerState.list, ho]) rfl
    exact h₂
  | case2 out groups _ hd =>
    intro s h ho hg
    rw [disconnectOutbound_of_none groups hd, ← ho, ← hg]
    exact h

theorem Inv.handleQuery (h : Inv cfg ext tr s) {resolve : GoString → Except String NetAddress}
    {q : Query} {s' : PeerState} {rep : Reply} (hq : handleQuery cfg ext resolve s q = some (s', rep)) :
    Inv cfg ext tr s' := by
  cases q with
  | getConnCount =>
    obtain ⟨_, -, he⟩ := Option.map_eq_some'.mp hq
    cases he; exact h
  | getPeers | getOutboundGroup _ | getAddedNodes => cases hq; exact h
  | connectNode addr permanent =>
    simp only [Pod.Node.handleQuery] at hq
    split_ifs at hq <;> try split at hq
    all_goals cases hq; exact h
  | removeNode cmp =>
    simp only [Pod.Node.handleQuery] at hq
    split at hq
    · rename_i sp pers hd
      cases hq
      obtain ⟨k, hk, -, rfl⟩ := disconnectPeer_some hd
      exact h.erase (l := .persistent) hk rfl
    · cases hq; exact h
  | disconnectNode cmp =>
    simp only [Pod.Node.handleQuery] at hq
    split at hq
    · rename_i inb hd
      cases hq
      obtain ⟨k, hk, -, rfl⟩ := disconnectPeer_some hd
      exact h.erase (l := .inbound) hk rfl
    · split at hq
      · rename_i sp out hd
        cases hq
        rw [← disconnectOutbound_of_some _ hd]
        exact h.disconnectOutbound cmp _ _ rfl rfl
      · cases hq; exact h

theorem Inv.handleMsg (h : Inv cfg ext tr s) {resolve : GoString → Except String NetAddress}
    {env : Env} {m : Msg} {s' : PeerState} {r : Option Reply} (hok : MsgOk tr m)
    (hm : handleMsg cfg ext resolve env s m = some (s', r)) : Inv cfg ext (tr ++ [m]) s' := by
  cases m with
  | newPeer sp => cases hm; exact h.handleAddPeerMsg hok
  | donePeer sp => cases hm; exact h.handleDonePeerMsg hok
  | banPeer sp => cases hm; exact h.handleBanPeerMsg _ sp
  | query q =>
    obtain ⟨⟨s₁, rep⟩, hq, he⟩ := Option.map_eq_some'.mp hm
    cases he
    exact (h.handleQuery hq).snoc _

end Steps

/-! ### Runs -/

theorem Admissible.of_snoc {tr : List Msg} {m : Msg} (h : Admissible (tr ++ [m])) :
    Admissible tr ∧ MsgOk tr m := by
  generalize he : tr ++ [m] = l at h
  cases h with
  | nil => simp at he
  | snoc h hm =>
    obtain ⟨rfl, h'⟩ := List.append_inj' he rfl
    cases h'
    exact ⟨h, hm⟩

/-- Two peers a run offers with one ID are one peer. -/
theorem Admissible.newPeer_unique {tr : List Msg} (h : Admissible tr) {p q : NodePeer}
    (hp : Msg.newPeer p ∈ tr) (hq : Msg.newPeer q ∈ tr) (hid : p.id = q.id) : p = q := by
  induction h with
  | nil => cases hp
  | snoc _ hm ih =>
    simp only [List.mem_append, List.mem_singleton] at hp hq
    rcases hp with hp | hp <;> rcases hq with hq | hq
    · exact ih hp hq
    · exact absurd hid (hm.addOnce q p hq.symm hp)
    · exact absurd hid.symm (hm.addOnce p q hp.symm hq)
    · rw [← hq] at hp; cases hp; rfl

/-- `MsgOk` as a test: the message's peer, if any, has its version known and agrees with every
earlier peer of its ID, and an offered peer has an ID no earlier offer has. -/
def MsgCheck (tr : List Msg) (m : Msg) : Bool :=
  match m.peer? with
  | none => true
  | some p =>
    p.versionKnown && (tr.filterMap Msg.peer?).all (fun q => q.id != p.id ||
        (q.inbound == p.inbound && q.persistent == p.persistent && q.na == p.na)) &&
      match m with
      | .newPeer _ => tr.all fun m' => match m' with
        | .newPeer q => q.id != p.id
        | _ => true
      | _ => true

/-- A message that passes `MsgCheck` is `MsgOk`. -/
theorem MsgCheck.msgOk {tr : List Msg} {m : Msg} (h : MsgCheck tr m = true) : MsgOk tr m := by
  unfold MsgCheck at h
  cases hm : m.peer? with
  | none =>
    refine ⟨fun _ _ hp => (nomatch hp.symm.trans hm), fun _ _ hp => (nomatch hp.symm.trans hm),
      fun _ _ he => ?_⟩
    subst he; cases hm
  | some p =>
    rw [hm] at h
    simp only [Bool.and_eq_true, List.all_eq_true, Bool.or_eq_true, bne_iff_ne, ne_eq,
      beq_iff_eq] at h
    obtain ⟨⟨hv, hs⟩, ho⟩ := h
    refine ⟨fun p' q hp hq hid => ?_, fun p' _ hp _ _ => ?_, fun p' q he hq => ?_⟩
    · cases hp.symm.trans hm
      have h := (hs q hq).resolve_left (not_not.mpr hid)
      exact ⟨h.1.1, h.1.2, h.2⟩
    · cases hp.symm.trans hm
      exact hv
    · subst he
      cases hm
      simp only [List.all_eq_true] at ho
      simpa using ho _ hq

/-- A run whose every message passes `MsgCheck` after the ones before it is admissible. -/
theorem Admissible.of_check {tr : List Msg}
    (h : ∀ i (hi : i < tr.length), MsgCheck (tr.take i) tr[i] = true) : Admissible tr := by
  induction tr using List.reverseRecOn with
  | nil => exact .nil
  | append_singleton tr m ih =>
    refine .snoc (ih fun i hi => ?_) (MsgCheck.msgOk ?_)
    · have h' := h i (by rw [List.length_append]; omega)
      rwa [List.take_append_of_le_length hi.le, List.getElem_append_left hi] at h'
    · simpa using h tr.length (by simp)

theorem Inv.empty (cfg : Config) (ext : Ext) : Inv cfg ext [] .empty := by
  refine ⟨fun l k p hk => ?_, Nat.zero_le _, fun g => ?_⟩
  · cases l <;> cases hk
  · rfl

/-- Every reachable state satisfies `Inv`. -/
theorem Reachable.inv {cfg : Config} {ext : Ext} {resolve : GoString → Except String NetAddress}
    {tr : List (Env × Msg)} {s : PeerState} (hr : Reachable cfg ext resolve tr s)
    (ha : Admissible (tr.map Prod.snd)) : Inv cfg ext (tr.map Prod.snd) s := by
  induction hr with
  | empty => exact Inv.empty cfg ext
  | step _ hre hm ih =>
    rw [List.map_append, List.map_singleton] at ha ⊢
    obtain ⟨ha, hok⟩ := ha.of_snoc
    exact ((ih ha).reorder hre).handleMsg hok hm

/-- What the peer maps keep: the inbound, outbound and persistent maps have pairwise disjoint
keys, `Count()` is at most `MaxPeers`, and `OutboundGroups[g]` counts the outbound and persistent
peers of group `g`. -/
def PeerConsistent (cfg : Config) (ext : Ext) (s : PeerState) : Prop :=
  (∀ l₁ l₂ k, l₁ ≠ l₂ → k ∈ s.list l₁ → k ∉ s.list l₂) ∧ s.count ≤ cfg.maxPeers ∧
    ∀ g, s.outboundGroups.getD g = (groupCount ext s g : Int)

/-- **The peer maps stay consistent** in every state `PeerHandler` reaches by admissible
messages. -/
theorem Reachable.consistent {cfg : Config} {ext : Ext}
    {resolve : GoString → Except String NetAddress} {tr : List (Env × Msg)} {s : PeerState}
    (hr : Reachable cfg ext resolve tr s) (ha : Admissible (tr.map Prod.snd)) :
    PeerConsistent cfg ext s := by
  have hi := hr.inv ha
  refine ⟨fun l₁ l₂ k hne h₁ h₂ => hne ?_, hi.bounded, hi.groups⟩
  obtain ⟨p, hp⟩ := Option.isSome_iff_exists.mp (AList.lookup_isSome.mpr h₁)
  obtain ⟨q, hq⟩ := Option.isSome_iff_exists.mp (AList.lookup_isSome.mpr h₂)
  obtain ⟨hpk, hpl, hpa⟩ := hi.placed _ _ _ hp
  obtain ⟨hqk, hql, hqa⟩ := hi.placed _ _ _ hq
  rw [← hpl, ← hql, ha.newPeer_unique hpa hqa (hpk.trans hqk.symm)]

end Pod.Node
