import Pod.Node.PeerState

/-!
# Node — the connection count

`HandleQuery`'s `GetConnCountMsg` branch counts each connected peer under the key
`nonceKey`: the 8 bytes after `"nonce"` in its user agent with its local IP, or its local
and remote addresses.  The user agent is whatever the remote peer sent.

* `nonceKey_eq_none_iff`: the key is a panic exactly when the user agent has a `"nonce"` and
  fewer than 8 bytes stand between the first one and the next one (or the end).
* `handleQuery_getConnCount`: the query panics when one peer's key does, connected or not;
  otherwise it replies with the number of distinct keys of the connected peers.
* `getConnCount_panics_on_trailing_nonce`: one peer whose user agent ends in `"nonce"` makes
  the query panic.
-/

namespace Pod.Node

open Pod

theorem nonceKey_eq_none_iff (sp : NodePeer) :
    nonceKey sp = none ↔ ∃ u₀ u₁ rest,
      GoString.split (.ofAscii "nonce") sp.userAgent = u₀ :: u₁ :: rest ∧ u₁.length < 8 := by
  unfold nonceKey
  split
  · rename_i u₀ u₁ rest hs
    simp only [Option.map_eq_none', GoString.sliceTo_eq_none, hs, List.cons.injEq]
    constructor
    · intro h; exact ⟨u₀, u₁, rest, ⟨rfl, rfl, rfl⟩, h⟩
    · rintro ⟨a, b, c, ⟨rfl, rfl, rfl⟩, h⟩; exact h
  · rename_i hs
    simp only [reduceCtorEq, false_iff, not_exists, not_and]
    intro u₀ u₁ rest h
    exact (hs u₀ u₁ rest h).elim

/-- The loop panics exactly when one peer's key does. -/
theorem countNonces_eq_none_iff (ps : List NodePeer) (acc : List GoString) :
    countNonces ps acc = none ↔ ∃ p ∈ ps, nonceKey p = none := by
  induction ps generalizing acc with
  | nil => simp [countNonces]
  | cons p ps ih =>
    cases hk : nonceKey p with
    | none => simp [countNonces, hk]
    | some x => simp [countNonces, hk, ih]

/-- Without a panic, the loop adds to `acc` each new key of a connected peer, once. -/
theorem countNonces_eq_some {ps : List NodePeer} {acc out : List GoString}
    (h : countNonces ps acc = some out) (hacc : acc.Nodup) :
    out.Nodup ∧ ∀ x, x ∈ out ↔ x ∈ acc ∨ ∃ p ∈ ps, p.connected = true ∧ nonceKey p = some x := by
  induction ps generalizing acc with
  | nil => cases h; simp [hacc]
  | cons p ps ih =>
    cases hk : nonceKey p with
    | none => simp [countNonces, hk] at h
    | some x =>
      simp only [countNonces, hk, Option.bind_eq_bind, Option.some_bind] at h
      split_ifs at h with hnew
      · obtain ⟨hn, hm⟩ := ih h (List.nodup_cons.mpr ⟨hnew.1, hacc⟩)
        refine ⟨hn, fun y => ?_⟩
        rw [hm]
        constructor
        · rintro (hy | ⟨q, hq, hc, hqk⟩)
          · rcases List.mem_cons.mp hy with rfl | hy
            · exact .inr ⟨p, List.mem_cons_self _ _, hnew.2, hk⟩
            · exact .inl hy
          · exact .inr ⟨q, List.mem_cons_of_mem _ hq, hc, hqk⟩
        · rintro (hy | ⟨q, hq, hc, hqk⟩)
          · exact .inl (List.mem_cons_of_mem _ hy)
          · rcases List.mem_cons.mp hq with rfl | hq
            · rw [hk] at hqk; cases hqk; exact .inl (List.mem_cons_self _ _)
            · exact .inr ⟨q, hq, hc, hqk⟩
      · obtain ⟨hn, hm⟩ := ih h hacc
        refine ⟨hn, fun y => ?_⟩
        rw [hm]
        constructor
        · rintro (hy | ⟨q, hq, hc, hqk⟩)
          · exact .inl hy
          · exact .inr ⟨q, List.mem_cons_of_mem _ hq, hc, hqk⟩
        · rintro (hy | ⟨q, hq, hc, hqk⟩)
          · exact .inl hy
          · rcases List.mem_cons.mp hq with rfl | hq
            · rw [hk] at hqk; cases hqk
              exact .inl (by by_contra hx; exact hnew ⟨hx, hc⟩)
            · exact .inr ⟨q, hq, hc, hqk⟩

/-- The keys of the connected peers. -/
def connectedKeys (ps : List NodePeer) : Finset GoString :=
  ((ps.filter (·.connected)).filterMap nonceKey).toFinset

theorem mem_connectedKeys {ps : List NodePeer} {x : GoString} :
    x ∈ connectedKeys ps ↔ ∃ p ∈ ps, p.connected = true ∧ nonceKey p = some x := by
  simp [connectedKeys, and_assoc]

/-- **The connection count**: `GetConnCountMsg` panics when some peer's key does, and
otherwise replies with the number of distinct keys of the connected peers, leaving the state
as it was. -/
theorem handleQuery_getConnCount (cfg : Config) (ext : Ext)
    (resolve : GoString → Except String NetAddress) (s : PeerState) :
    handleQuery cfg ext resolve s .getConnCount =
      if ∀ p ∈ s.allPeers, (nonceKey p).isSome then
        some (s, .count (connectedKeys s.allPeers).card)
      else none := by
  simp only [handleQuery]
  split_ifs with hall
  · cases h : countNonces s.allPeers [] with
    | none =>
      obtain ⟨p, hp, hk⟩ := (countNonces_eq_none_iff _ _).mp h
      simpa [hk] using hall p hp
    | some out =>
      obtain ⟨hn, hm⟩ := countNonces_eq_some h List.nodup_nil
      have : out.toFinset = connectedKeys s.allPeers := by
        ext x; simp [hm, mem_connectedKeys]
      simp [← this, List.toFinset_card_of_nodup hn]
  · push_neg at hall
    obtain ⟨p, hp, hk⟩ := hall
    have : countNonces s.allPeers [] = none :=
      (countNonces_eq_none_iff _ _).mpr ⟨p, hp, by simpa using hk⟩
    simp [this]

/-- A user agent that ends in `"nonce"` leaves nothing to slice. -/
theorem getConnCount_panics_on_trailing_nonce :
    let sp : NodePeer := ⟨1, .ofAscii "10.0.0.1:8333", .ofAscii "10.0.0.2:8333",
      ⟨.ofAscii "10.0.0.1", 8333⟩, true, false, true, true, true, none, .ofAscii "/pod:0.1/nonce"⟩
    handleQuery ⟨8, 0⟩ ⟨some, NetAddress.ip⟩ (fun _ => .error "")
      { PeerState.empty with inboundPeers := PeerState.empty.inboundPeers.insert sp.id sp }
      .getConnCount = none := by
  intro sp
  have hsplit : GoString.split (.ofAscii "nonce") sp.userAgent = [GoString.ofAscii "/pod:0.1/", []] := by
    rw [GoString.split_of_breakOn_some (by decide) (by decide : GoString.breakOn _ sp.userAgent =
      some (.ofAscii "/pod:0.1/", [])), GoString.split_of_breakOn_none (by decide)]
  have hk : nonceKey sp = none := (nonceKey_eq_none_iff sp).mpr ⟨_, _, _, hsplit, by decide⟩
  rw [handleQuery_getConnCount, if_neg]
  push_neg
  exact ⟨sp, by simp [PeerState.allPeers, PeerState.empty], by simp [hk]⟩

end Pod.Node
