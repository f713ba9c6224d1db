import Pod.Gbt.WorkState

/-!
# GBT — what `NotifyLongPollers` closes, under the lock

`NotifyLongPollers` closes every channel registered under another hash than the tip it is
given, and those of the tip from before the generation second it is given; it deletes what it
closes.  `TemplateUpdateChan` registers a fresh channel only under a key that had none.

* `notifyLongPollers_eq_some`: with no channel registered twice and none closed,
  `NotifyLongPollers` does not panic, and the registrations split into those it keeps and those
  it closes and deletes, each closed once.
* `notifyLongPollers_closes_exactly`: when no hash has an empty inner map, the closed channels
  are exactly those of the stale registrations, the rest stay, and a hash stays a key exactly
  while it keeps a registration.
* `Reachable.channels`: in every run of locked sections, the registered channels are distinct
  and open, and every channel ever made is registered or closed: no close panics and no waiter
  is dropped while its channel is open.
-/

namespace Pod.Gbt

open Pod

/-! ### Closing channels -/

theorem closeAll_append (a b closed : List Chan) :
    closeAll (a ++ b) closed = (closeAll a closed).bind (closeAll b) := by
  induction a generalizing closed with
  | nil => rfl
  | cons c a ih =>
    simp only [List.cons_append, closeAll]
    cases closeChan c closed with
    | none => rfl
    | some closed => exact ih closed

/-- `close` on each of `cs` succeeds exactly when they are distinct and all open. -/
theorem closeAll_eq (cs closed : List Chan) :
    closeAll cs closed =
      if cs.Nodup ∧ ∀ c ∈ cs, c ∉ closed then some (cs.reverse ++ closed) else none := by
  induction cs generalizing closed with
  | nil => simp [closeAll]
  | cons c cs ih =>
    simp only [closeAll, closeChan]
    by_cases hc : c ∈ closed
    · rw [if_pos hc, if_neg fun h => h.2 c (List.mem_cons_self _ _) hc]; rfl
    · rw [if_neg hc, Option.some_bind, ih]
      refine if_congr ?_ (by simp) rfl
      simp only [List.nodup_cons, List.forall_mem_cons]
      simp only [List.mem_cons, not_or]
      constructor
      · rintro ⟨hn, hm⟩
        exact ⟨⟨fun h => (hm c h).1 rfl, hn⟩, hc, fun x hx => (hm x hx).2⟩
      · rintro ⟨⟨hcs, hn⟩, -, hm⟩
        exact ⟨hn, fun x hx => ⟨fun h => hcs (h ▸ hx), hm x hx⟩⟩

/-! ### Deleting while ranging -/

/-- `delete` of each key in turn. -/
def eraseKeys {κ V : Type} [DecidableEq κ] (ks : List κ) (m : GoMap κ V) : GoMap κ V :=
  ks.foldl (fun m k => m.erase k) m

section Entries

variable {κ V : Type} [DecidableEq κ]

/-- The loop closes the channels of the entries it picks, in order, and deletes their keys. -/
theorem closeEntries_eq (p : κ → Bool) (chansOf : V → List Chan) (l : List (Σ _ : κ, V))
    (m : GoMap κ V) (closed : List Chan) :
    closeEntries p chansOf l m closed =
      (closeAll ((l.filter (p ·.1)).flatMap (chansOf ·.2)) closed).map fun closed =>
        (eraseKeys ((l.filter (p ·.1)).map (·.1)) m, closed) := by
  induction l generalizing m closed with
  | nil => simp [closeEntries, closeAll, eraseKeys]
  | cons e l ih =>
    obtain ⟨k, v⟩ := e
    by_cases hp : p k
    · simp only [closeEntries, hp, if_true, List.filter_cons, List.flatMap_cons,
        closeAll_append, ih, List.map_cons]
      cases closeAll (chansOf v) closed <;> rfl
    · simp only [closeEntries, hp, Bool.false_eq_true, if_false, List.filter_cons, ih]

theorem entries_eraseKeys (ks : List κ) (m : GoMap κ V) :
    (eraseKeys ks m).entries = m.entries.filter fun e => !decide (e.1 ∈ ks) := by
  induction ks generalizing m with
  | nil => simp [eraseKeys]
  | cons k ks ih =>
    simp only [eraseKeys, List.foldl_cons] at ih ⊢
    rw [ih]
    rw [GoMap.entries_erase, List.filter_filter]
    apply List.filter_congr
    intro e _
    by_cases h₁ : e.1 = k <;> by_cases h₂ : e.1 ∈ ks <;> simp [h₁, h₂]

/-- Deleting the keys of the entries `p` picks leaves the others. -/
theorem entries_eraseKeys_filter (p : κ → Bool) (m : GoMap κ V) :
    (eraseKeys ((m.entries.filter (p ·.1)).map (·.1)) m).entries =
      m.entries.filter fun e => !p e.1 := by
  rw [entries_eraseKeys]
  apply List.filter_congr
  intro e he
  have : e.1 ∈ (m.entries.filter (p ·.1)).map (·.1) ↔ p e.1 = true := by
    simp only [List.mem_map, List.mem_filter]
    constructor
    · rintro ⟨e', ⟨-, hp⟩, hk⟩; rwa [← hk]
    · exact fun hp => ⟨e, ⟨he, hp⟩, rfl⟩
  simp [this]

/-- A map whose keys all equal `k` holds nothing, or only `k`'s value. -/
theorem entries_of_keys_eq {m : GoMap κ V} {k : κ} (hk : ∀ e ∈ m.entries, e.1 = k) :
    m.entries = match m.lookup k with
      | some v => [⟨k, v⟩]
      | none => [] := by
  obtain ⟨l, hl⟩ := m
  cases l with
  | nil => rfl
  | cons e l =>
    obtain ⟨k', v⟩ := e
    obtain ⟨he, -⟩ := List.nodupKeys_cons.mp hl
    have h₁ : k' = k := hk _ (List.mem_cons_self _ _)
    have h₂ : l = [] := List.eq_nil_iff_forall_not_mem.mpr fun e' he' => by
      have h₃ : e'.1 = k := hk e' (List.mem_cons_of_mem _ he')
      have h₄ := List.mem_keys_of_mem he'
      rw [h₃, ← h₁] at h₄
      exact he h₄
    subst h₁ h₂
    simp [AList.lookup, List.dlookup_cons_eq]

end Entries

/-! ### `NotifyLongPollers` -/

/-- The registrations of some entries of a `NotifyMap`: hash, generation second, channel. -/
def regsOf (l : List (Σ _ : Hash, GoMap Int Chan)) : List (Hash × Int × Chan) :=
  l.flatMap fun e => e.2.entries.map fun e' => (e.1, e'.1, e'.2)

/-- The registrations of a `NotifyMap`. -/
def regs (m : NotifyMap) : List (Hash × Int × Chan) := regsOf m.entries

/-- What a registration's channel is. -/
def chanOf (r : Hash × Int × Chan) : Chan := r.2.2

/-- The channels registered in a `NotifyMap`. -/
def chans (m : NotifyMap) : List Chan := (regs m).map chanOf

theorem regsOf_perm_filter (q : (Σ _ : Hash, GoMap Int Chan) → Bool)
    (l : List (Σ _ : Hash, GoMap Int Chan)) :
    List.Perm (regsOf l) (regsOf (l.filter q) ++ regsOf (l.filter fun e => !q e)) := by
  unfold regsOf
  rw [← List.flatMap_append]
  exact ((List.filter_append_perm q l).flatMap_right _).symm

theorem flatMap_values (l : List (Σ _ : Hash, GoMap Int Chan)) :
    l.flatMap (fun e => GoMap.values e.2) = (regsOf l).map chanOf := by
  simp [regsOf, GoMap.values, List.map_flatMap, chanOf, Function.comp_def]

theorem regs_singleton (k : Hash) (channels : GoMap Int Chan) :
    regsOf [⟨k, channels⟩] = channels.entries.map fun e => (k, e.1, e.2) := by
  simp [regsOf]

/-- Distinct open channels: what `close` needs of each. -/
def Closable (cs closed : List Chan) : Prop := cs.Nodup ∧ ∀ c ∈ cs, c ∉ closed

instance (cs closed : List Chan) : Decidable (Closable cs closed) :=
  inferInstanceAs (Decidable (cs.Nodup ∧ ∀ c ∈ cs, c ∉ closed))

theorem closeAll_of_closable {cs closed : List Chan} (h : Closable cs closed) :
    closeAll cs closed = some (cs.reverse ++ closed) := by
  rw [closeAll_eq, if_pos (show cs.Nodup ∧ ∀ c ∈ cs, c ∉ closed from h)]

theorem Closable.perm {cs cs' closed : List Chan} (h : Closable cs closed) (hp : List.Perm cs cs') :
    Closable cs' closed :=
  ⟨hp.nodup_iff.mp h.1, fun c hc => h.2 c (hp.mem_iff.mpr hc)⟩

theorem Closable.left {a b closed : List Chan} (h : Closable (a ++ b) closed) : Closable a closed :=
  ⟨h.1.of_append_left, fun c hc => h.2 c (List.mem_append_left _ hc)⟩

theorem Closable.right {a b closed : List Chan} (h : Closable (a ++ b) closed) :
    Closable b (a.reverse ++ closed) := by
  refine ⟨h.1.of_append_right, fun c hc hm => ?_⟩
  rcases List.mem_append.mp hm with hm | hm
  · exact List.disjoint_of_nodup_append h.1 (List.mem_reverse.mp hm) hc
  · exact h.2 c (List.mem_append_right _ hc) hm

/-- The first loop closes the channels of every other hash, and leaves `latestHash`'s entry. -/
theorem closeStale_eq_some {latest : Hash} {m : NotifyMap} {closed : List Chan}
    (h : Closable ((regsOf (m.entries.filter (·.1 != latest))).map chanOf) closed) :
    ∃ m₁, closeStale latest m closed =
        some (m₁, ((regsOf (m.entries.filter (·.1 != latest))).map chanOf).reverse ++ closed) ∧
      m₁.entries = m.entries.filter fun e => !(e.1 != latest) := by
  unfold closeStale
  rw [closeEntries_eq, flatMap_values, closeAll_of_closable h]
  exact ⟨_, rfl, entries_eraseKeys_filter (fun hash => hash != latest) m⟩

/-- The second loop closes the channels from before `u`. -/
theorem closeOlder_eq_some {u : Int} {channels : GoMap Int Chan} {closed : List Chan}
    (h : Closable ((channels.entries.filter (·.1 < u)).map (·.2)) closed) :
    ∃ ch, closeOlder u channels closed =
        some (ch, ((channels.entries.filter (·.1 < u)).map (·.2)).reverse ++ closed) ∧
      ch.entries = channels.entries.filter fun e => !decide (e.1 < u) := by
  unfold closeOlder
  have hf : ∀ l : List (Σ _ : Int, Chan), (l.flatMap fun e => [e.2]) = l.map (·.2) := fun l => by
    induction l <;> simp [*]
  rw [closeEntries_eq, hf, closeAll_of_closable h]
  exact ⟨_, rfl, entries_eraseKeys_filter (fun lastGen => decide (lastGen < u)) channels⟩

theorem mem_regsOf {r : Hash × Int × Chan} {l : List (Σ _ : Hash, GoMap Int Chan)} :
    r ∈ regsOf l ↔ ∃ e ∈ l, ∃ e' ∈ e.2.entries, r = (e.1, e'.1, e'.2) := by
  simp only [regsOf, List.mem_flatMap, List.mem_map, @eq_comm _ r]

/-- What is left of `latestHash`'s entry once the second loop ran. -/
theorem regs_tip_update {m : NotifyMap} {latest : Hash} {channels : GoMap Int Chan}
    (hm : m.entries = [⟨latest, channels⟩]) (ch : GoMap Int Chan) :
    regs (if GoMap.len ch = 0 then m.erase latest else m.insert latest ch) =
      ch.entries.map fun e => (latest, e.1, e.2) := by
  split
  · rename_i h0
    have hch : ch.entries = [] := List.eq_nil_of_length_eq_zero h0
    change regsOf (m.entries.kerase latest) = _
    simp [hm, hch, regsOf]
  · simp [regs, AList.insert_entries, hm, regsOf]

/-- With only `latestHash` left, the rest of `NotifyLongPollers` closes the channels from
before `lastGenerated`'s second, unless it is zero. -/
theorem notifyAtTip_eq_some {latest : Hash} {lg : Time} {m : NotifyMap} {closed : List Chan}
    (hk : ∀ e ∈ m.entries, e.1 = latest) (h : Closable (chans m) closed) :
    ∃ m' removed, notifyAtTip latest lg m closed = some (m', (removed.map chanOf).reverse ++ closed) ∧
      List.Perm (regs m) (regs m' ++ removed) ∧
      (∀ r ∈ regs m', r.1 = latest ∧ (lg.isZero = true ∨ Time.unix lg ≤ r.2.1)) ∧
      ∀ r ∈ removed, r.1 = latest ∧ lg.isZero = false ∧ r.2.1 < Time.unix lg := by
  have hm := entries_of_keys_eq hk
  have hlatest : ∀ r ∈ regs m, r.1 = latest := fun r hr => by
    obtain ⟨e, he, -, -, rfl⟩ := mem_regsOf.mp hr
    exact hk e he
  unfold notifyAtTip
  by_cases hz : lg.isZero = true
  · exact ⟨m, [], by simp [hz], by simp, fun r hr => ⟨hlatest r hr, .inl hz⟩, by simp⟩
  · rw [if_neg hz]
    cases hl : m.lookup latest with
    | none =>
      rw [hl] at hm
      exact ⟨m, [], rfl, by simp, by simp [regs, hm, regsOf], by simp⟩
    | some channels =>
      rw [hl] at hm
      dsimp only at hm ⊢
      let f : (Σ _ : Int, Chan) → Hash × Int × Chan := fun e => (latest, e.1, e.2)
      have hregs : regs m = channels.entries.map f := by rw [regs, hm, regs_singleton]
      have hsplit := List.filter_append_perm (fun e => decide (e.1 < Time.unix lg)) channels.entries
      have hc : Closable ((channels.entries.filter (·.1 < Time.unix lg)).map (·.2)) closed := by
        refine Closable.left (b := (channels.entries.filter fun e => !decide (e.1 < Time.unix lg)).map
          (·.2)) (h.perm ?_)
        rw [chans, hregs, ← List.map_append, List.map_map]
        exact (hsplit.map _).symm
      obtain ⟨ch, hch, hent⟩ := closeOlder_eq_some hc
      rw [hch, Option.map_some']
      refine ⟨if GoMap.len ch = 0 then m.erase latest else m.insert latest ch,
        (channels.entries.filter (·.1 < Time.unix lg)).map f, ?_, ?_, ?_, ?_⟩
      · simp [f, chanOf, Function.comp_def]
      · rw [regs_tip_update hm, hregs, hent, ← List.map_append]
        exact (hsplit.symm.trans List.perm_append_comm).map f
      · rw [regs_tip_update hm, hent]
        intro r hr
        obtain ⟨e, he, rfl⟩ := List.mem_map.mp hr
        exact ⟨rfl, .inr (by simpa using (List.mem_filter.mp he).2)⟩
      · intro r hr
        obtain ⟨e, he, rfl⟩ := List.mem_map.mp hr
        exact ⟨rfl, by simpa using hz, by simpa using (List.mem_filter.mp he).2⟩

/-- **`NotifyLongPollers` under the lock**: when no channel is registered twice and none is
closed, it does not panic; every registration is kept, under `latestHash` and from
`lastGenerated`'s second on, or closed once and deleted, under another hash or from before. -/
theorem notifyLongPollers_eq_some {latest : Hash} {lg : Time} {m : NotifyMap}
    {closed : List Chan} (h : Closable (chans m) closed) :
    ∃ m' removed, notifyLongPollers latest lg m closed =
        some (m', (removed.map chanOf).reverse ++ closed) ∧
      List.Perm (regs m) (regs m' ++ removed) ∧
      (∀ r ∈ regs m', r.1 = latest ∧ (lg.isZero = true ∨ Time.unix lg ≤ r.2.1)) ∧
      ∀ r ∈ removed, r.1 ≠ latest ∨ (lg.isZero = false ∧ r.2.1 < Time.unix lg) := by
  have hp := regsOf_perm_filter (fun e => e.1 != latest) m.entries
  have hc : Closable ((regsOf (m.entries.filter (·.1 != latest))).map chanOf ++
      (regsOf (m.entries.filter fun e => !(e.1 != latest))).map chanOf) closed := by
    rw [← List.map_append]; exact h.perm (hp.map chanOf)
  obtain ⟨m₁, h₁, he₁⟩ := closeStale_eq_some hc.left
  have hk : ∀ e ∈ m₁.entries, e.1 = latest := fun e he => by
    rw [he₁] at he; simpa using (List.mem_filter.mp he).2
  have hc₁ : Closable (chans m₁)
      (((regsOf (m.entries.filter (·.1 != latest))).map chanOf).reverse ++ closed) := by
    rw [chans, regs, he₁]; exact hc.right
  obtain ⟨m', removed, h₂, hperm, hkeep, hrem⟩ := @notifyAtTip_eq_some latest lg _ _ hk hc₁
  refine ⟨m', regsOf (m.entries.filter (·.1 != latest)) ++ removed, ?_, ?_, hkeep, ?_⟩
  · rw [notifyLongPollers, h₁, Option.some_bind]
    dsimp only
    rw [h₂]
    simp
  · refine (hp.trans List.perm_append_comm).trans ?_
    rw [← he₁]
    exact (hperm.append_right _).trans
      (by rw [List.append_assoc]; exact List.perm_append_comm.append_left _)
  · intro r hr
    rcases List.mem_append.mp hr with hr | hr
    · obtain ⟨e, he, -, -, rfl⟩ := mem_regsOf.mp hr
      exact .inl (by simpa using (List.mem_filter.mp he).2)
    · exact .inr (hrem r hr).2

/-! ### What `NotifyLongPollers` closes -/

/-- The registrations `NotifyLongPollers` closes: those under another hash than `latestHash`,
and, unless `lastGenerated` is the zero time, those under `latestHash` from before its
second. -/
def Stale (latestHash : Hash) (lastGenerated : Time) (r : Hash × Int × Chan) : Bool :=
  r.1 != latestHash || (!lastGenerated.isZero && decide (r.2.1 < Time.unix lastGenerated))

/-- No hash is left with an empty map of channels. -/
def NoneEmpty (m : NotifyMap) : Prop := ∀ e ∈ m.entries, e.2.entries ≠ []

instance (m : NotifyMap) : Decidable (NoneEmpty m) :=
  inferInstanceAs (Decidable (∀ e ∈ m.entries, e.2.entries ≠ []))

/-- In a map with no empty entry, a hash is present exactly when something is registered
under it. -/
theorem NoneEmpty.mem_iff {m : NotifyMap} (hne : NoneEmpty m) (k : Hash) :
    k ∈ m ↔ ∃ r ∈ regs m, r.1 = k := by
  constructor
  · intro hk
    obtain ⟨v, hv⟩ := Option.isSome_iff_exists.mp (AList.lookup_isSome.mpr hk)
    have he : (⟨k, v⟩ : Σ _ : Hash, GoMap Int Chan) ∈ m.entries := AList.mem_lookup_iff.mp hv
    obtain ⟨e', he'⟩ := List.exists_mem_of_ne_nil _ (hne _ he)
    exact ⟨(k, e'.1, e'.2), mem_regsOf.mpr ⟨_, he, e', he', rfl⟩, rfl⟩
  · rintro ⟨r, hr, rfl⟩
    obtain ⟨e, he, -, -, rfl⟩ := mem_regsOf.mp hr
    exact AList.mem_keys.mp (List.mem_keys_of_mem he)

theorem NoneEmpty.closeStale {latest : Hash} {m m₁ : NotifyMap} {closed c₁ : List Chan}
    (hne : NoneEmpty m) (h : closeStale latest m closed = some (m₁, c₁)) : NoneEmpty m₁ := by
  rw [Pod.Gbt.closeStale, closeEntries_eq] at h
  obtain ⟨_, -, he⟩ := Option.map_eq_some'.mp h
  cases he
  intro e he'
  rw [entries_eraseKeys] at he'
  exact hne e (List.mem_filter.mp he').1

theorem NoneEmpty.notifyAtTip {latest : Hash} {lg : Time} {m m' : NotifyMap}
    {closed c' : List Chan} (hne : NoneEmpty m) (h : notifyAtTip latest lg m closed = some (m', c')) :
    NoneEmpty m' := by
  unfold Pod.Gbt.notifyAtTip at h
  split at h
  · cases h; exact hne
  split at h
  · cases h; exact hne
  obtain ⟨⟨ch, _⟩, -, he⟩ := Option.map_eq_some'.mp h
  cases he
  split
  · exact fun e he' => hne e ((List.kerase_sublist _ _).subset he')
  · rename_i hlen
    intro e he'
    rw [AList.insert_entries] at he'
    rcases List.mem_cons.mp he' with rfl | he'
    · exact fun hnil => hlen (List.length_eq_zero.mpr hnil)
    · exact hne e ((List.kerase_sublist _ _).subset he')

/-- **What `NotifyLongPollers` does**: given a map in which no hash has an empty map and the
channels are distinct and open, it does not panic; it closes, each once, exactly the channels
of the `Stale` registrations; exactly the other registrations stay; and a hash stays in the map
exactly when something is still registered under it, so `latestHash`'s entry goes exactly when
the second loop emptied it. -/
theorem notifyLongPollers_closes_exactly {latest : Hash} {lg : Time} {m : NotifyMap}
    {closed : List Chan} (hne : NoneEmpty m) (h : Closable (chans m) closed) :
    ∃ m' shut, notifyLongPollers latest lg m closed = some (m', shut ++ closed) ∧
      List.Perm shut (((regs m).filter (Stale latest lg)).map chanOf) ∧
      List.Perm (regs m') ((regs m).filter fun r => !Stale latest lg r) ∧
      ∀ k, k ∈ m' ↔ ∃ r ∈ regs m', r.1 = k := by
  obtain ⟨m', removed, he, hperm, hkeep, hrem⟩ := @notifyLongPollers_eq_some latest lg m closed h
  have hk : ∀ r ∈ regs m', Stale latest lg r = false := fun r hr => by
    obtain ⟨h₁, h₂⟩ := hkeep r hr
    rcases h₂ with h₂ | h₂ <;> simp [Stale, h₁, h₂]
  have hr : ∀ r ∈ removed, Stale latest lg r = true := fun r hr => by
    rcases hrem r hr with h₁ | ⟨h₁, h₂⟩
    · simp [Stale, h₁]
    · simp [Stale, h₁, h₂]
  have hne' : NoneEmpty m' := by
    obtain ⟨⟨m₁, c₁⟩, h₁, h₂⟩ := Option.bind_eq_some.mp he
    exact (hne.closeStale h₁).notifyAtTip h₂
  refine ⟨m', (removed.map chanOf).reverse, he, ?_, ?_, hne'.mem_iff⟩
  · -- the stale registrations are the removed ones
    have hs : List.Perm ((regs m).filter (Stale latest lg)) removed := by
      refine (hperm.filter _).trans ?_
      rw [List.filter_append, List.filter_eq_nil_iff.mpr fun r hr' => by simp [hk r hr'],
        List.filter_eq_self.mpr hr, List.nil_append]
    exact (List.reverse_perm _).trans (hs.map chanOf).symm
  · -- the others are those kept
    refine (?_ : List.Perm _ _).trans (hperm.filter _).symm
    rw [List.filter_append, List.filter_eq_self.mpr fun r hr' => by simp [hk r hr'],
      List.filter_eq_nil_iff.mpr fun r hr' => by simp [hr r hr'], List.append_nil]

/-- Hash `7` with channels `0` and `1` from seconds `100` and `200`, and hash `8` with channel
`2` from second `50`. -/
def twoHashes : NotifyMap :=
  let tip : GoMap Int Chan := ((∅ : GoMap Int Chan).insert 100 0).insert 200 1
  let other : GoMap Int Chan := (∅ : GoMap Int Chan).insert 50 2
  AList.insert (β := fun _ => GoMap Int Chan) 8 other (AList.insert 7 tip ∅)

/-- For tip `7` generated in second `150`, channels `0` and `2` are closed. -/
theorem notifyLongPollers_closes_exactly_twoHashes :
    NoneEmpty twoHashes ∧ Closable (chans twoHashes) [] ∧
      ∃ m' shut, notifyLongPollers 7 (150 * Time.second) twoHashes [] = some (m', shut ++ []) ∧
        List.Perm shut [0, 2] := by
  have h₁ : NoneEmpty twoHashes := by decide
  have h₂ : Closable (chans twoHashes) [] := by decide
  obtain ⟨m', shut, he, hs, -⟩ :=
    @notifyLongPollers_closes_exactly 7 (150 * Time.second) twoHashes [] h₁ h₂
  exact ⟨h₁, h₂, m', shut, he, hs.trans (by decide)⟩

/-! ### `TemplateUpdateChan` -/

/-- A map's registrations are those under `k` and those of the rest. -/
theorem regs_perm_erase (m : NotifyMap) (k : Hash) :
    List.Perm (regs m) (regsOf [⟨k, (m.lookup k).getD ∅⟩] ++ regs (m.erase k)) := by
  by_cases hk : k ∈ m.entries.keys
  · obtain ⟨b, l₁, l₂, hk₁, he, hke⟩ := List.exists_of_kerase hk
    have hl : m.lookup k = some b := by
      change m.entries.dlookup k = some b
      rw [he, List.dlookup_append, List.dlookup_eq_none.mpr hk₁, List.dlookup_cons_eq]
      rfl
    change List.Perm (regsOf m.entries) (_ ++ regsOf (m.entries.kerase k))
    rw [hl, Option.getD_some, hke, he]
    exact (List.perm_middle.flatMap_right _).trans (by simp [regsOf])
  · have hl : m.lookup k = none := List.dlookup_eq_none.mpr hk
    change List.Perm (regsOf m.entries) (_ ++ regsOf (m.entries.kerase k))
    rw [hl, List.kerase_of_not_mem_keys hk]
    simp [regsOf, AList.empty_entries]

/-- `TemplateUpdateChan` either finds the channel or registers a fresh one. -/
theorem templateUpdateChan_cases (prevHash : Hash) (lastGenerated : Int) (w : Work) :
    (templateUpdateChan prevHash lastGenerated w).1 = w ∨
      ((templateUpdateChan prevHash lastGenerated w).1.nextChan = w.nextChan + 1 ∧
        (templateUpdateChan prevHash lastGenerated w).1.closed = w.closed ∧
        List.Perm (regs (templateUpdateChan prevHash lastGenerated w).1.state.notifyMap)
          ((prevHash, lastGenerated, w.nextChan) :: regs w.state.notifyMap)) := by
  cases hc : ((w.state.notifyMap.lookup prevHash).getD ∅).lookup lastGenerated with
  | some c => exact .inl (by simp [templateUpdateChan, hc])
  | none =>
    let channels := (w.state.notifyMap.lookup prevHash).getD ∅
    have h₁ : (templateUpdateChan prevHash lastGenerated w).1 = { w with
        state := { w.state with
          notifyMap := w.state.notifyMap.insert prevHash (channels.insert lastGenerated w.nextChan) }
        nextChan := w.nextChan + 1 } := by
      simp [templateUpdateChan, hc, channels]
    rw [h₁]
    refine .inr ⟨rfl, rfl, ?_⟩
    have hg : lastGenerated ∉ channels := AList.lookup_eq_none.mp hc
    have hi : (channels.insert lastGenerated w.nextChan).entries =
        ⟨lastGenerated, w.nextChan⟩ :: channels.entries := by
      rw [AList.insert_entries_of_neg hg]
    refine List.Perm.trans ?_ ((regs_perm_erase w.state.notifyMap prevHash).cons _).symm
    change List.Perm (regsOf (⟨prevHash, channels.insert lastGenerated w.nextChan⟩ ::
      w.state.notifyMap.entries.kerase prevHash)) _
    simp only [regsOf, List.flatMap_cons, List.flatMap_nil, List.append_nil, hi, List.map_cons,
      List.cons_append]
    exact List.Perm.refl _

/-! ### The channels of a run under the lock -/

/-- Every registered channel is registered once and open, no channel is closed twice, and
every channel made so far is registered or closed. -/
structure ChanOk (m : NotifyMap) (closed : List Chan) (nextChan : Chan) : Prop where
  closable : Closable (chans m) closed
  closed_nodup : closed.Nodup
  made : ∀ c, c < nextChan ↔ c ∈ chans m ∨ c ∈ closed

variable {m m' : NotifyMap} {closed closed' : List Chan} {next : Chan}

/-- `NotifyLongPollers` keeps the channels consistent. -/
theorem ChanOk.notify (h : ChanOk m closed next) {latest : Hash} {lg : Time}
    (hn : notifyLongPollers latest lg m closed = some (m', closed')) : ChanOk m' closed' next := by
  obtain ⟨m₂, removed, he, hperm, -, -⟩ := @notifyLongPollers_eq_some latest lg _ _
    h.closable
  rw [hn, Option.some.injEq, Prod.mk.injEq] at he
  obtain ⟨rfl, rfl⟩ := he
  have hp : List.Perm (chans m) (chans m' ++ removed.map chanOf) := by
    rw [chans, chans, ← List.map_append]; exact hperm.map _
  have hc : Closable (removed.map chanOf ++ chans m') closed :=
    h.closable.perm (hp.trans List.perm_append_comm)
  refine ⟨hc.right, ?_, fun c => ?_⟩
  · exact List.nodup_append.mpr ⟨List.nodup_reverse.mpr hc.left.1, h.closed_nodup,
      fun c h₁ h₂ => hc.2 c (List.mem_append_left _ (List.mem_reverse.mp h₁)) h₂⟩
  · rw [h.made, hp.mem_iff]
    simp only [List.mem_append, List.mem_reverse, or_assoc]

/-- Registering a fresh channel keeps the channels consistent. -/
theorem ChanOk.register (h : ChanOk m closed next) {k : Hash} {g : Int}
    (hp : List.Perm (regs m') ((k, g, next) :: regs m)) : ChanOk m' closed (next + 1) := by
  have hnew : next ∉ chans m ∧ next ∉ closed := by
    have := (h.made next).not.mp (lt_irrefl next)
    exact not_or.mp this
  have hp' : List.Perm (chans m') (next :: chans m) := by
    rw [chans, chans]; exact hp.map chanOf
  refine ⟨⟨hp'.nodup_iff.mpr (List.nodup_cons.mpr ⟨hnew.1, h.closable.1⟩), fun c hc => ?_⟩,
    h.closed_nodup, fun c => ?_⟩
  · rcases List.mem_cons.mp (hp'.mem_iff.mp hc) with rfl | hc
    · exact hnew.2
    · exact h.closable.2 c hc
  · rw [hp'.mem_iff, List.mem_cons, Nat.lt_succ_iff_lt_or_eq, h.made, or_comm, or_assoc]

section Sections

variable {merkleRoot : List MsgTx → Hash} {env : Env} {addrs : List Address}
  {useCoinbaseValue : Bool} {w w' : Work} {err : Option String}

/-- A new template leaves the channels, or runs `NotifyLongPollers` at the tip. -/
theorem regenerate_chans (h : regenerate env addrs useCoinbaseValue w = some (w', err)) :
    w'.nextChan = w.nextChan ∧ ((w'.state.notifyMap = w.state.notifyMap ∧ w'.closed = w.closed) ∨
      notifyLongPollers env.tip env.lastTxUpdate w.state.notifyMap w.closed =
        some (w'.state.notifyMap, w'.closed)) := by
  unfold regenerate at h
  obtain ⟨payAddr, -, h⟩ := Option.bind_eq_some.mp h
  split at h
  · cases h; exact ⟨rfl, .inl ⟨rfl, rfl⟩⟩
  · obtain ⟨⟨m, c⟩, hn, he⟩ := Option.map_eq_some'.mp h
    cases he; exact ⟨rfl, .inr hn⟩

/-- Refreshing the template leaves the channels. -/
theorem refreshTemplate_chans {t : BlockTemplate}
    (h : refreshTemplate merkleRoot env addrs useCoinbaseValue t w = some (w', err)) :
    w'.nextChan = w.nextChan ∧ w'.state.notifyMap = w.state.notifyMap ∧ w'.closed = w.closed := by
  unfold refreshTemplate at h
  obtain ⟨r, -, he⟩ := Option.map_eq_some'.mp h
  split at he <;> cases he <;> exact ⟨rfl, rfl, rfl⟩

theorem ChanOk.update (h : ChanOk w.state.notifyMap w.closed w.nextChan)
    (hu : updateBlockTemplate merkleRoot env addrs useCoinbaseValue w = some (w', err)) :
    ChanOk w'.state.notifyMap w'.closed w'.nextChan := by
  have hgen : regenerate env addrs useCoinbaseValue w = some (w', err) →
      ChanOk w'.state.notifyMap w'.closed w'.nextChan := fun hr => by
    obtain ⟨hn, ⟨hm, hc⟩ | hl⟩ := regenerate_chans hr
    · rw [hn, hm, hc]; exact h
    · rw [hn]; exact h.notify hl
  unfold updateBlockTemplate at hu
  split at hu
  · exact hgen hu
  · split at hu
    · exact hgen hu
    · obtain ⟨hn, hm, hc⟩ := refreshTemplate_chans hu
      rw [hn, hm, hc]; exact h

theorem ChanOk.longPoll (h : ChanOk w.state.notifyMap w.closed w.nextChan)
    {longPollID : Option (Hash × Int)}
    (hl : handleGetBlockTemplateLongPoll merkleRoot env addrs useCoinbaseValue longPollID w =
      some w') :
    ChanOk w'.state.notifyMap w'.closed w'.nextChan := by
  obtain ⟨w₁, err₁, hu, rfl | ⟨prevHash, lastGenerated, rfl⟩⟩ :=
    handleGetBlockTemplateLongPoll_cases hl
  · exact h.update hu
  · rcases templateUpdateChan_cases prevHash lastGenerated w₁ with he | ⟨hn, hc, hp⟩
    · rw [he]; exact h.update hu
    · rw [hn, hc]; exact (h.update hu).register hp

theorem ChanOk.mempoolTx (h : ChanOk w.state.notifyMap w.closed w.nextChan) {lastUpdated now : Time}
    (hm : notifyMempoolTx lastUpdated now w = some w') :
    ChanOk w'.state.notifyMap w'.closed w'.nextChan := by
  unfold notifyMempoolTx at hm
  split at hm
  · cases hm; exact h
  · split at hm
    · cases hm; exact h
    · split at hm
      · obtain ⟨⟨m, c⟩, hn, he⟩ := Option.map_eq_some'.mp hm
        cases he; exact h.notify hn
      · cases hm; exact h

theorem ChanOk.blockConnected (h : ChanOk w.state.notifyMap w.closed w.nextChan) {blockHash : Hash}
    (hb : notifyBlockConnected blockHash w = some w') :
    ChanOk w'.state.notifyMap w'.closed w'.nextChan := by
  obtain ⟨⟨m, c⟩, hn, he⟩ := Option.map_eq_some'.mp hb
  cases he; exact h.notify hn

end Sections

variable {merkleRoot : List MsgTx → Hash} {addrs : List Address} {G : Env → Prop} {w : Work}

/-- **The channels under the lock**: in every run of locked sections, each registered channel
is registered once and open, no channel has been closed twice, and every channel
`TemplateUpdateChan` made is still registered or has been closed — never both, never
neither. -/
theorem Reachable.chanOk (hr : Reachable merkleRoot addrs G w) :
    ChanOk w.state.notifyMap w.closed w.nextChan := by
  induction hr with
  | refl =>
    have h0 : chans (∅ : NotifyMap) = [] := rfl
    exact ⟨⟨List.nodup_nil, by simp [Work.init, GBTWorkState.new, h0]⟩, List.nodup_nil,
      by simp [Work.init, GBTWorkState.new, h0]⟩
  | tail _ hs ih =>
    cases hs with
    | request _ _ _ _ hu => exact ih.update hu
    | longPoll _ _ _ _ _ hl => exact ih.longPoll hl
    | mempoolTx _ _ hm => exact ih.mempoolTx hm
    | blockConnected _ hb => exact ih.blockConnected hb

/-- **No close panics under the lock**: from every state of such a run, `NotifyLongPollers`
returns, whatever tip and time it is given. -/
theorem Reachable.notifyLongPollers_isSome (hr : Reachable merkleRoot addrs G w) (latest : Hash)
    (lg : Time) : (notifyLongPollers latest lg w.state.notifyMap w.closed).isSome := by
  obtain ⟨_, _, he, -⟩ := @notifyLongPollers_eq_some latest lg _ _ hr.chanOk.closable
  rw [he]; rfl

/-- A template for tip `7` and a long poll on it, then `NotifyLongPollers` for block `8`. -/
theorem Reachable.notifyLongPollers_isSome_waiter :
    ∃ w, Reachable (fun _ => 0) [] (fun _ => True) w ∧ (7, 100, 0) ∈ regs w.state.notifyMap ∧
      (notifyLongPollers 8 0 w.state.notifyMap w.closed).isSome := by
  have hr : Reachable (fun _ => 0) [] (fun _ => True) _ := .tail (.tail .refl
    (.request (Env.fixed 7 50000000000 100000000000) true trivial rfl rfl))
    (.longPoll (Env.fixed 7 50000000000 100500000000) true (some (7, 100)) trivial rfl rfl)
  exact ⟨_, hr, by decide, Reachable.notifyLongPollers_isSome hr 8 0⟩

end Pod.Gbt
