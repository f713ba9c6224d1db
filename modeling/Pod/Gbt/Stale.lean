import Pod.Gbt.Pollers

/-!
# GBT — long polls on a replaced template

A long poll registers under the current template's previous-block hash and generation second.
When `UpdateBlockTemplate` builds a new template it calls `NotifyLongPollers` with the tip and
the mempool's last update, `lastTxUpdate`, not with the new generation time: the waiters under
the tip from `lastTxUpdate`'s second on stay registered.

* `regenerate_regs`: after a new template, the registrations left are exactly those under the
  new tip from `lastTxUpdate`'s second on, and the channel of every other one is closed.
* `longPoll_waiter_outlives_template`: a mempool update in the same second as the template it
  outdates leaves that template's waiter registered, and its channel open, once the next
  template replaced it.
-/

namespace Pod.Gbt

open Pod

variable {merkleRoot : List MsgTx → Hash} {addrs : List Address} {G : Env → Prop} {env : Env}
  {useCoinbaseValue : Bool} {w w' : Work} {err : Option String}

/-- **What a new template leaves registered**: in every run of locked sections, a call of
`UpdateBlockTemplate` that builds a new template and returns nil keeps exactly the waiters
under the new tip registered from the second of the mempool's last update on, and releases
the others: their channels, open before, are closed. -/
theorem regenerate_regs (hr : Reachable merkleRoot addrs G w)
    (hu : regenerate env addrs useCoinbaseValue w = some (w', none)) (r : Hash × Int × Chan) :
    (r ∈ regs w'.state.notifyMap ↔ r ∈ regs w.state.notifyMap ∧ r.1 = env.tip ∧
      (env.lastTxUpdate.isZero = true ∨ Time.unix env.lastTxUpdate ≤ r.2.1)) ∧
    (r ∈ regs w.state.notifyMap → r ∉ regs w'.state.notifyMap →
      r.2.2 ∈ w'.closed ∧ r.2.2 ∉ w.closed) := by
  unfold regenerate at hu
  obtain ⟨payAddr, -, hu⟩ := Option.bind_eq_some.mp hu
  split at hu
  · cases hu
  · obtain ⟨⟨m, c⟩, hn, he⟩ := Option.map_eq_some'.mp hu
    cases he
    obtain ⟨m', removed, he, hperm, hkeep, hrem⟩ :=
      @notifyLongPollers_eq_some env.tip env.lastTxUpdate _ _ hr.chanOk.closable
    rw [hn, Option.some.injEq, Prod.mk.injEq] at he
    obtain ⟨rfl, rfl⟩ := he
    refine ⟨⟨fun h => ⟨hperm.mem_iff.mpr (List.mem_append_left _ h), hkeep r h⟩, ?_⟩,
      fun h hgone => ?_⟩
    · rintro ⟨h, hk, hg⟩
      rcases List.mem_append.mp (hperm.mem_iff.mp h) with h | h
      · exact h
      · rcases hrem r h with hne | ⟨hz, hlt⟩
        · exact absurd hk hne
        · rcases hg with hg | hg
          · rw [hz] at hg; cases hg
          · exact absurd hg (not_le.mpr hlt)
    · -- a registration that goes was removed, and the loops close what they remove
      have hrm : r ∈ removed := (List.mem_append.mp (hperm.mem_iff.mp h)).resolve_left hgone
      exact ⟨List.mem_append_left _ (List.mem_reverse.mpr (List.mem_map_of_mem chanOf hrm)),
        hr.chanOk.closable.2 _ (List.mem_map_of_mem chanOf h)⟩

/-- The waiter of `(7, 100)` stays registered when a template for tip `7` is built with the
mempool last updated in second `100`, and is released, its channel `0` closed, when the new
template is for tip `8`. -/
theorem regenerate_regs_waiters :
    (∃ w w', Reachable (fun _ => 0) [] (fun _ => True) w ∧
      regenerate (Env.fixed 7 100500000000 170000000000) [] true w = some (w', none) ∧
      (7, 100, 0) ∈ regs w'.state.notifyMap) ∧
    ∃ w w', Reachable (fun _ => 0) [] (fun _ => True) w ∧
      regenerate (Env.fixed 8 100500000000 170000000000) [] true w = some (w', none) ∧
      (7, 100, 0) ∉ regs w'.state.notifyMap ∧ 0 ∈ w'.closed := by
  have hr : Reachable (fun _ => 0) [] (fun _ => True) _ := .tail (.tail .refl
    (.request (Env.fixed 7 50000000000 100000000000) true trivial rfl rfl))
    (.longPoll (Env.fixed 7 50000000000 100500000000) true (some (7, 100)) trivial rfl rfl)
  exact ⟨⟨_, _, hr, rfl, (@regenerate_regs _ _ _ (Env.fixed 7 100500000000 170000000000) true _ _
      hr rfl (7, 100, 0)).1.mpr ⟨by decide, rfl, .inr (by decide)⟩⟩, _, _, hr, rfl, by decide,
    ((@regenerate_regs _ _ _ (Env.fixed 8 100500000000 170000000000) true _ _
      hr rfl (7, 100, 0)).2 (by decide) (by decide)).1⟩

/-- **A waiter left on a replaced template**: a template for tip `7` is generated at 100 s
with the mempool last updated at 50 s, and a long poll registers channel `0` under
`(7, 100)`.  The mempool changes at 100.5 s, and at 170 s a request builds a new template;
`NotifyLongPollers` is given 100.5 s and releases only waiters from before second 100. -/
theorem longPoll_waiter_outlives_template :
    ∃ w, Reachable (fun _ => 0) [] (fun _ => True) w ∧
      w.state.template.map (·.header.prevBlock) = some 7 ∧ Time.unix w.state.lastGenerated = 170 ∧
      (7, 100, 0) ∈ regs w.state.notifyMap ∧ 0 ∉ w.closed := by
  exact ⟨_, .tail (.tail (.tail .refl
    (.request (Env.fixed 7 50000000000 100000000000) true trivial rfl rfl))
    (.longPoll (Env.fixed 7 50000000000 100500000000) true (some (7, 100)) trivial rfl rfl))
    (.request (Env.fixed 7 100500000000 170000000000) true trivial rfl rfl),
    rfl, rfl, by decide, by decide⟩

end Pod.Gbt
