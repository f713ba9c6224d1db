import Pod.Node.Shutdown

/-!
# Node — the rebroadcast handler

`RebroadcastHandler` keeps the inventory vectors of transactions submitted through RPC and not yet
in a block (`pendingInvs`).  It waits in a `select` on `ModifyRebroadcastInv`, which carries an add
(`BroadcastInventoryAdd`, setting a vector's data) or a delete (`BroadcastInventoryDel`), on a timer,
which relays every pending vector and is reset to `RandomUint16Number(1800)` seconds, and on `Quit`,
after which it drains the messages still queued.  `RandomUint16Number` draws `uint16` words from
`rand.Reader` until one falls below the largest multiple of `max` under `2 ^ 16`, and reduces it
modulo `max`; the words a draw reads are the model's source of randomness.

* `rebroadcast_run_inv`: after any events, the pending data of each vector is what the last add or
  delete before `Quit` left, and the timer's period stays below thirty minutes.
* `rebroadcast_tick_relays`: each tick relays every pending vector once, with its data, and nothing
  else.
-/

namespace Pod.Node

open Pod

/-! ### `RandomUint16Number` -/

/-- `limitRange`: `(math.MaxUint16 / max) * max`, the largest multiple of `max` a `uint16` word
is drawn below. -/
def limitRange (max : UInt16) : UInt16 := (65535 / max) * max

/-- The loop of `RandomUint16Number` over the words `binary.Read` takes from `rand.Reader`: the
first word below `limitRange`, reduced modulo `max`; `none` when no word of the list is. -/
def randomUint16NumberLoop (max limitRange : UInt16) : List UInt16 → Option UInt16
  | [] => none
  | randomNumber :: rest =>
    if randomNumber < limitRange then some (randomNumber % max)
    else randomUint16NumberLoop max limitRange rest

/-- `RandomUint16Number(max)`; `max = 0` divides by zero, a panic (`none`). -/
def randomUint16Number (max : UInt16) (words : List UInt16) : Option UInt16 :=
  if max = 0 then none else randomUint16NumberLoop max (limitRange max) words

/-- A draw that returns gives a value below `max`. -/
theorem randomUint16Number_lt {max : UInt16} {words : List UInt16} {r : UInt16}
    (h : randomUint16Number max words = some r) : r < max := by
  unfold randomUint16Number at h
  split at h
  · cases h
  · rename_i hmax
    induction words with
    | nil => cases h
    | cons w rest ih =>
      simp only [randomUint16NumberLoop] at h
      split at h
      · cases h
        show (w % max).toNat < max.toNat
        rw [UInt16.toNat_mod]
        exact Nat.mod_lt _ (Nat.pos_of_ne_zero fun h0 => hmax (UInt16.toNat.inj h0))
      · exact ih h

/-! ### The rebroadcast handler -/

section Rebroadcast

variable {I D : Type}

/-- What `ModifyRebroadcastInv` carries: `BroadcastInventoryAdd` and `BroadcastInventoryDel`. -/
inductive RebroadcastMsg (I D : Type) where
  | add (invVect : I) (data : D)
  | del (invVect : I)

/-- The inventory vector a message is about. -/
def RebroadcastMsg.invVect : RebroadcastMsg I D → I
  | .add iv _ => iv
  | .del iv => iv

/-- The data a message leaves for its vector: an add's, and none after a delete. -/
def RebroadcastMsg.data? : RebroadcastMsg I D → Option D
  | .add _ data => some data
  | .del _ => none

/-- What the handler's `select` receives: a message, the timer firing (with the words the next
period's draw reads), or `Quit` closing. -/
inductive RebroadcastEvent (I D : Type) where
  | modify (msg : RebroadcastMsg I D)
  | timer (words : List UInt16)
  | quit

/-- `Quit` was received. -/
def RebroadcastEvent.isQuit : RebroadcastEvent I D → Bool
  | .quit => true
  | _ => false

/-- The messages the loop handles: those received before `Quit`. -/
def sentBeforeQuit : List (RebroadcastEvent I D) → List (RebroadcastMsg I D)
  | [] => []
  | .modify msg :: es => msg :: sentBeforeQuit es
  | .timer _ :: es => sentBeforeQuit es
  | .quit :: _ => []

theorem sentBeforeQuit_append_single (hist : List (RebroadcastEvent I D)) (e : RebroadcastEvent I D) :
    sentBeforeQuit (hist ++ [e]) =
      if hist.any RebroadcastEvent.isQuit then sentBeforeQuit hist
      else sentBeforeQuit hist ++ sentBeforeQuit [e] := by
  induction hist with
  | nil => rfl
  | cons e' hist ih =>
    cases e' with
    | modify msg =>
      show msg :: sentBeforeQuit (hist ++ [e]) = _
      rw [ih]
      exact apply_ite (List.cons msg) _ _ _
    | timer _ => exact ih
    | quit => rfl

/-- A timer or `Quit` adds no message. -/
theorem sentBeforeQuit_append_silent (hist : List (RebroadcastEvent I D)) {e : RebroadcastEvent I D}
    (he : sentBeforeQuit [e] = []) : sentBeforeQuit (hist ++ [e]) = sentBeforeQuit hist := by
  rw [sentBeforeQuit_append_single, he, List.append_nil, ite_self]

variable [DecidableEq I]

/-- What the messages last said of `iv`: the data of the last add about it, or nothing when the
last message about it is a delete or there is none. -/
def lastSaid (iv : I) (msgs : List (RebroadcastMsg I D)) : Option D :=
  ((msgs.filter fun m => m.invVect = iv).getLast?).bind RebroadcastMsg.data?

theorem lastSaid_append_single (iv : I) (msgs : List (RebroadcastMsg I D))
    (m : RebroadcastMsg I D) :
    lastSaid iv (msgs ++ [m]) = if m.invVect = iv then m.data? else lastSaid iv msgs := by
  unfold lastSaid
  by_cases h : m.invVect = iv
  · simp only [List.filter_append, List.filter_cons, List.filter_nil, h, decide_True, ↓reduceIte,
      List.getLast?_append_of_ne_nil _ (List.cons_ne_nil _ _), List.getLast?_singleton,
      Option.some_bind]
  · simp [List.filter_append, h]

/-- The handler's state: `pendingInvs`, the period the timer was last set to, and whether the
`select` loop still runs. -/
structure Rebroadcast (I D : Type) [DecidableEq I] where
  pendingInvs : GoMap I D
  period : Int
  running : Bool

/-- The start of `RebroadcastHandler`: no inventory, the timer set to five minutes. -/
def Rebroadcast.init : Rebroadcast I D := ⟨∅, 5 * minute, true⟩

/-- A message's effect on `pendingInvs`: an add sets the vector's data, a delete removes the vector
if present. -/
def Rebroadcast.modify (s : Rebroadcast I D) : RebroadcastMsg I D → Rebroadcast I D
  | .add iv data => { s with pendingInvs := s.pendingInvs.insert iv data }
  | .del iv =>
    if (s.pendingInvs.lookup iv).isSome then { s with pendingInvs := s.pendingInvs.erase iv } else s

/-- One pass of the handler's loop, with the inventories it relays (`RelayInventory`).  When the
timer fires, every pending vector is relayed and the timer is reset to
`RandomUint16Number(1800)` seconds; `none` when that draw does not return.  After `Quit` the loop
has ended: the cleanup drains messages without effect, and the timer is stopped.  The order of a
map's `range` is not specified; the relayed list is in the map's order, and the results speak of
its members only. -/
def Rebroadcast.step (s : Rebroadcast I D) :
    RebroadcastEvent I D → Option (Rebroadcast I D × List (I × D))
  | .modify msg => some (if s.running then s.modify msg else s, [])
  | .timer words =>
    if s.running then
      (randomUint16Number 1800 words).map fun r =>
        ({ s with period := Time.second * r.toNat }, s.pendingInvs.entries.map fun e => (e.1, e.2))
    else some (s, [])
  | .quit => some ({ s with running := false }, [])

/-- The handler run over a sequence of events, with what each relays. -/
def Rebroadcast.run (s : Rebroadcast I D) :
    List (RebroadcastEvent I D) → Option (Rebroadcast I D × List (List (I × D)))
  | [] => some (s, [])
  | e :: es =>
    match s.step e with
    | none => none
    | some (s', relayed) => (s'.run es).map fun r => (r.1, relayed :: r.2)

theorem lookup_modify (s : Rebroadcast I D) (msg : RebroadcastMsg I D) (iv : I) :
    (s.modify msg).pendingInvs.lookup iv =
      if msg.invVect = iv then msg.data? else s.pendingInvs.lookup iv := by
  cases msg with
  | add iv' data =>
    by_cases h : iv' = iv
    · subst h; simp [Rebroadcast.modify, RebroadcastMsg.invVect, RebroadcastMsg.data?]
    · simp [Rebroadcast.modify, RebroadcastMsg.invVect, h, AList.lookup_insert_ne (Ne.symm h)]
  | del iv' =>
    simp only [Rebroadcast.modify, RebroadcastMsg.invVect, RebroadcastMsg.data?]
    by_cases h : iv' = iv
    · subst h
      split
      · simp
      · rename_i hn
        simpa using hn
    · split <;> simp [h, AList.lookup_erase_ne (Ne.symm h)]

/-- **What the handler keeps**, after the events `hist`: each vector's data is what the messages
before `Quit` last said of it, the loop runs until `Quit`, and the timer's period lies in
`[0, 30 min)`. -/
structure RebroadcastInv (hist : List (RebroadcastEvent I D)) (s : Rebroadcast I D) : Prop where
  pending : ∀ iv, s.pendingInvs.lookup iv = lastSaid iv (sentBeforeQuit hist)
  running : s.running = !hist.any RebroadcastEvent.isQuit
  period_nonneg : 0 ≤ s.period
  period_lt : s.period < 30 * minute

theorem rebroadcastInv_init : RebroadcastInv ([] : List (RebroadcastEvent I D)) Rebroadcast.init :=
  ⟨fun _ => rfl, rfl, by simp only [Rebroadcast.init, minute, Time.second]; omega,
    by simp only [Rebroadcast.init, minute, Time.second]; omega⟩

/-- A message changes neither the period nor whether the loop runs. -/
theorem modify_period_running (s : Rebroadcast I D) (msg : RebroadcastMsg I D) :
    (s.modify msg).period = s.period ∧ (s.modify msg).running = s.running := by
  cases msg with
  | add => exact ⟨rfl, rfl⟩
  | del iv => simp only [Rebroadcast.modify]; split <;> exact ⟨rfl, rfl⟩

/-- One pass keeps the invariant. -/
theorem RebroadcastInv.step {hist : List (RebroadcastEvent I D)} {s s' : Rebroadcast I D}
    {e : RebroadcastEvent I D} {relayed : List (I × D)} (hi : RebroadcastInv hist s)
    (h : s.step e = some (s', relayed)) : RebroadcastInv (hist ++ [e]) s' := by
  have hany : (hist ++ [e]).any RebroadcastEvent.isQuit = (hist.any RebroadcastEvent.isQuit || e.isQuit) := by
    simp
  cases e with
  | modify msg =>
    obtain ⟨rfl, -⟩ := Prod.mk.inj (Option.some.inj h)
    by_cases hq : hist.any RebroadcastEvent.isQuit
    · have hr : s.running = false := by rw [hi.running, hq]; rfl
      simp only [hr, Bool.false_eq_true, ↓reduceIte]
      refine ⟨fun iv => ?_, ?_, hi.period_nonneg, hi.period_lt⟩
      · rw [sentBeforeQuit_append_single, if_pos hq, hi.pending]
      · rw [hr, hany, hq]; rfl
    · have hq' := Bool.eq_false_iff.mpr hq
      have hr : s.running = true := by rw [hi.running, hq']; rfl
      have hm := modify_period_running s msg
      simp only [hr, ↓reduceIte]
      refine ⟨fun iv => ?_, ?_, hm.1 ▸ hi.period_nonneg, hm.1 ▸ hi.period_lt⟩
      · rw [sentBeforeQuit_append_single, if_neg hq, sentBeforeQuit, sentBeforeQuit,
          lastSaid_append_single, lookup_modify, hi.pending]
      · rw [hany, hq', hm.2, hr]; rfl
  | timer words =>
    simp only [Rebroadcast.step] at h
    have hsent : sentBeforeQuit (hist ++ [.timer words]) = sentBeforeQuit hist :=
      sentBeforeQuit_append_silent hist rfl
    split at h
    · rename_i hr
      obtain ⟨r, hdraw, hs⟩ := Option.map_eq_some'.mp h
      obtain ⟨rfl, -⟩ := Prod.mk.inj hs
      have hlt : r.toNat < 1800 := randomUint16Number_lt hdraw
      refine ⟨fun iv => by rw [hsent, ← hi.pending], ?_, by simp only [Time.second]; omega,
        by simp only [Time.second, minute]; omega⟩
      simp only [hany, RebroadcastEvent.isQuit, Bool.or_false]
      exact hi.running
    · obtain ⟨rfl, -⟩ := Prod.mk.inj (Option.some.inj h)
      refine ⟨fun iv => by rw [hsent, hi.pending], ?_, hi.period_nonneg, hi.period_lt⟩
      simp only [hany, RebroadcastEvent.isQuit, Bool.or_false]
      exact hi.running
  | quit =>
    obtain ⟨rfl, -⟩ := Prod.mk.inj (Option.some.inj h)
    have hsent : sentBeforeQuit (hist ++ [.quit]) = sentBeforeQuit hist :=
      sentBeforeQuit_append_silent hist rfl
    refine ⟨fun iv => by rw [hsent, ← hi.pending], by simp [RebroadcastEvent.isQuit],
      hi.period_nonneg, hi.period_lt⟩

/-- Every run keeps the invariant. -/
theorem RebroadcastInv.run {hist : List (RebroadcastEvent I D)} {s : Rebroadcast I D}
    (hi : RebroadcastInv hist s) :
    ∀ {evs : List (RebroadcastEvent I D)} {s' : Rebroadcast I D} {rss : List (List (I × D))},
    s.run evs = some (s', rss) → RebroadcastInv (hist ++ evs) s'
  | [], _, _, h => by
    obtain ⟨rfl, -⟩ := Prod.mk.inj (Option.some.inj h)
    rwa [List.append_nil]
  | e :: es, _, _, h => by
    simp only [Rebroadcast.run] at h
    split at h
    · cases h
    · rename_i t relayed hstep
      obtain ⟨⟨_, _⟩, hr, hrr⟩ := Option.map_eq_some'.mp h
      obtain ⟨rfl, -⟩ := Prod.mk.inj hrr
      have := (hi.step hstep).run hr
      rwa [List.append_assoc, List.singleton_append] at this

/-- **The handler over every run**: after any events from its start, each inventory vector's
pending data is what the last add or delete received about it before `Quit` left (the data of
the add, or nothing), the loop runs exactly until `Quit`, and the timer's period is below thirty
minutes. -/
theorem rebroadcast_run_inv {evs : List (RebroadcastEvent I D)} {s : Rebroadcast I D}
    {rss : List (List (I × D))} (h : Rebroadcast.init.run evs = some (s, rss)) :
    RebroadcastInv evs s :=
  List.nil_append evs ▸ rebroadcastInv_init.run h

/-- **Every tick relays what is pending**: at a timer tick after any events, the handler relays
each vector at most once, and relays a vector with data `d` exactly when `Quit` has not come and
the last add or delete received about the vector was an add of `d`. -/
theorem rebroadcast_tick_relays {pre : List (RebroadcastEvent I D)} {words : List UInt16}
    {s s' : Rebroadcast I D} {rss : List (List (I × D))} {relayed : List (I × D)}
    (hrun : Rebroadcast.init.run pre = some (s, rss))
    (hstep : s.step (.timer words) = some (s', relayed)) :
    (relayed.map Prod.fst).Nodup ∧ ∀ iv d, (iv, d) ∈ relayed ↔
      pre.any RebroadcastEvent.isQuit = false ∧ lastSaid iv (sentBeforeQuit pre) = some d := by
  have hi : RebroadcastInv pre s := List.nil_append pre ▸ rebroadcastInv_init.run hrun
  simp only [Rebroadcast.step] at hstep
  split at hstep
  · rename_i hr
    obtain ⟨_, -, hs⟩ := Option.map_eq_some'.mp hstep
    obtain ⟨-, rfl⟩ := Prod.mk.inj hs
    have hq : pre.any RebroadcastEvent.isQuit = false :=
      Bool.not_eq_eq_eq_not.mp (hi.running.symm.trans hr)
    refine ⟨by rw [List.map_map]; exact s.pendingInvs.nodupKeys, fun iv d => ?_⟩
    rw [hq, ← hi.pending, ← Option.mem_def, AList.mem_lookup_iff, List.mem_map]
    exact ⟨fun ⟨_, he, hkv⟩ => by cases hkv; exact ⟨rfl, he⟩, fun ⟨_, he⟩ => ⟨_, he, rfl⟩⟩
  · rename_i hr
    obtain ⟨-, rfl⟩ := Prod.mk.inj (Option.some.inj hstep)
    have hq : pre.any RebroadcastEvent.isQuit = true :=
      Bool.not_eq_eq_eq_not.mp (hi.running.symm.trans (Bool.eq_false_iff.mpr hr))
    simp [hq]

end Rebroadcast

/-- Two vectors added, then the first deleted. -/
def addTwoDelOne : List (RebroadcastEvent Nat Unit) :=
  [.modify (.add 1 ()), .modify (.add 2 ()), .modify (.del 1)]

/-- What the handler holds after `addTwoDelOne`. -/
def afterAddTwoDelOne : Rebroadcast Nat Unit :=
  ⟨(((∅ : GoMap Nat Unit).insert 1 ()).insert 2 ()).erase 1, 5 * minute, true⟩

/-- The handler after `addTwoDelOne` keeps the second vector. -/
theorem rebroadcast_run_inv_addTwoDelOne :
    Rebroadcast.init.run addTwoDelOne = some (afterAddTwoDelOne, [[], [], []]) ∧
      RebroadcastInv addTwoDelOne afterAddTwoDelOne :=
  ⟨rfl, rebroadcast_run_inv rfl⟩

/-- The first tick after `addTwoDelOne`, drawing `5`, relays the second vector. -/
theorem rebroadcast_tick_relays_addTwoDelOne :
    Rebroadcast.init.run addTwoDelOne = some (afterAddTwoDelOne, [[], [], []]) ∧
      afterAddTwoDelOne.step (.timer [5]) =
        some ({ afterAddTwoDelOne with period := Time.second * 5 }, [(2, ())]) ∧
      ([(2, ())].map Prod.fst).Nodup ∧ ∀ iv d, (iv, d) ∈ [(2, ())] ↔
        addTwoDelOne.any RebroadcastEvent.isQuit = false ∧
          lastSaid iv (sentBeforeQuit addTwoDelOne) = some d :=
  ⟨rfl, rfl, @rebroadcast_tick_relays Nat Unit _ addTwoDelOne [5] afterAddTwoDelOne
    { afterAddTwoDelOne with period := Time.second * 5 } [[], [], []] [(2, ())] rfl rfl⟩

end Pod.Node
