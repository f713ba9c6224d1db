import Pod.Gbt.Pollers

/-!
# GBT — `NotifyBlockConnected` without the lock

`NotifyBlockConnected` starts a goroutine that reads `LastTxUpdate` under the work state's
mutex, releases it, and only then calls `NotifyLongPollers`, whose comment asks for the lock.
Its closes and deletes then interleave with the locked sections and with the other such
goroutines.

Each goroutine is a `Notifier`, and `notifierStep` its next step: the start of the `range`
over `NotifyMap`, in an order the runtime picks; reaching a key, which is skipped when it was
deleted meanwhile, as Go's `range` does; one `close`; the `delete` of a key whose channels are
closed.  The rest of `NotifyLongPollers`, at the tip, is one step.  The locked sections are
those of `Step` in `Pod.Gbt.WorkState`.

* `soloRun_notifyLongPollers`: a goroutine whose steps follow one another with no other step
  between them ends with what the locked `NotifyLongPollers` computes.
* `Reachable.server`: so every state the locked sections reach is a state of the code, and the
  results proved of the locked model (`Reachable.chanOk`) are about runs the code has.
* `notifier_races`: two goroutines for two new blocks both close a waiting long poll's
  channel, a panic; and a goroutine that closed a hash's channels deletes its entry after a
  long poll registered a new channel there, which is then neither registered nor closed.
-/

namespace Pod.Gbt

open Pod

/-- Where a `NotifyBlockConnected` goroutine stands. -/
inductive NotifierPc where
  /-- `LastTxUpdate` read; the `range` has not begun. -/
  | start
  /-- In the `range`: the keys it has yet to reach, in the runtime's order. -/
  | ranging (pending : List Hash)
  /-- Closing the channels `cs` of `hash`, whose `delete` comes next. -/
  | closing (hash : Hash) (cs : List Chan) (pending : List Hash)
  | done
  deriving DecidableEq, Repr

/-- A `NotifyBlockConnected` goroutine: its block, the `LastTxUpdate` it read, where it is. -/
structure Notifier where
  latestHash : Hash
  lastGenerated : Time
  pc : NotifierPc
  deriving DecidableEq, Repr

/-- The next step of a goroutine; `order` is the `range` order the runtime picks when the
`range` begins.  `none` is a panic. -/
def notifierStep (order : List Hash) (n : Notifier) (w : Work) : Option (Notifier × Work) :=
  match n.pc with
  | .start => some ({ n with pc := .ranging order }, w)
  | .ranging [] =>
    (notifyAtTip n.latestHash n.lastGenerated w.state.notifyMap w.closed).map
      fun (notifyMap, closed) => ({ n with pc := .done }, { w with state := { w.state with notifyMap }, closed })
  | .ranging (hash :: pending) =>
    match w.state.notifyMap.lookup hash with
    | none => some ({ n with pc := .ranging pending }, w)
    | some channels =>
      if hash != n.latestHash then some ({ n with pc := .closing hash (GoMap.values channels) pending }, w)
      else some ({ n with pc := .ranging pending }, w)
  | .closing hash (c :: cs) pending =>
    (closeChan c w.closed).map fun closed => ({ n with pc := .closing hash cs pending }, { w with closed })
  | .closing hash [] pending =>
    some ({ n with pc := .ranging pending },
      { w with state := { w.state with notifyMap := w.state.notifyMap.erase hash } })
  | .done => some (n, w)

/-- The work state and the `NotifyBlockConnected` goroutines. -/
structure Server where
  work : Work
  notifiers : List Notifier

def Server.init : Server := ⟨Work.init, []⟩

section Runs

variable (merkleRoot : List MsgTx → Hash) (addrs : List Address) (G : Env → Prop)

/-- One step: a locked section, a new block, or a goroutine's step. -/
inductive Server.Step : Server → Server → Prop where
  | request {s : Server} {w' : Work} {err : Option String} (env : Env) (useCoinbaseValue : Bool) :
      G env → coinbaseCheck addrs useCoinbaseValue = none →
      updateBlockTemplate merkleRoot env addrs useCoinbaseValue s.work = some (w', err) →
      Server.Step s ⟨w', s.notifiers⟩
  | longPoll {s : Server} {w' : Work} (env : Env) (useCoinbaseValue : Bool)
      (longPollID : Option (Hash × Int)) :
      G env → coinbaseCheck addrs useCoinbaseValue = none →
      handleGetBlockTemplateLongPoll merkleRoot env addrs useCoinbaseValue longPollID s.work =
        some w' →
      Server.Step s ⟨w', s.notifiers⟩
  | mempoolTx {s : Server} {w' : Work} (lastUpdated now : Time) :
      notifyMempoolTx lastUpdated now s.work = some w' → Server.Step s ⟨w', s.notifiers⟩
  | blockConnected {s : Server} (blockHash : Hash) :
      Server.Step s ⟨s.work, s.notifiers ++ [⟨blockHash, s.work.state.lastTxUpdate, .start⟩]⟩
  | notify {s : Server} {n n' : Notifier} {w' : Work} (i : Nat) (order : List Hash) :
      s.notifiers[i]? = some n → List.Perm order s.work.state.notifyMap.keys →
      notifierStep order n s.work = some (n', w') → Server.Step s ⟨w', s.notifiers.set i n'⟩

/-- The states some interleaving reaches from `NewGbtWorkState`. -/
def Server.Reachable (s : Server) : Prop :=
  Relation.ReflTransGen (Server.Step merkleRoot addrs G) Server.init s

end Runs

/-! ### A goroutine that runs alone -/

/-- The work state with `NotifyMap` and the closed channels replaced. -/
def Work.withNotify (w : Work) (notifyMap : NotifyMap) (closed : List Chan) : Work :=
  { w with state := { w.state with notifyMap }, closed }

/-- A goroutine's steps with no other step between them; each may pick a `range` order among
the keys at that step. -/
def SoloRun : Notifier × Work → Notifier × Work → Prop :=
  Relation.ReflTransGen fun a b =>
    ∃ order, List.Perm order a.2.state.notifyMap.keys ∧ notifierStep order a.1 a.2 = some b

/-- The closes of one hash's channels. -/
theorem soloRun_closing (latestHash : Hash) (lastGenerated : Time) (w : Work) (hash : Hash)
    (pending : List Hash) (m : NotifyMap) :
    ∀ (cs closed closed' : List Chan), closeAll cs closed = some closed' →
      SoloRun (⟨latestHash, lastGenerated, .closing hash cs pending⟩, w.withNotify m closed)
        (⟨latestHash, lastGenerated, .closing hash [] pending⟩, w.withNotify m closed')
  | [], _, _, h => by cases h; exact .refl
  | c :: cs, closed, closed', h => by
    obtain ⟨c₁, hc, h⟩ := Option.bind_eq_some.mp h
    refine .head ⟨_, .refl _, ?_⟩ (soloRun_closing latestHash lastGenerated w hash pending m cs c₁
      closed' h)
    simp only [notifierStep, Work.withNotify, hc, Option.map_some']

/-- The `range` over the stale hashes, run alone, does what `closeEntries` does, over entries
that the map still holds. -/
theorem soloRun_ranging (latestHash : Hash) (lastGenerated : Time) (w : Work) :
    ∀ (l : List (Σ _ : Hash, GoMap Int Chan)) (m : NotifyMap) (closed : List Chan)
      (m' : NotifyMap) (closed' : List Chan), l.NodupKeys → (∀ e ∈ l, m.lookup e.1 = some e.2) →
      closeEntries (fun hash => hash != latestHash) GoMap.values l m closed = some (m', closed') →
      SoloRun (⟨latestHash, lastGenerated, .ranging l.keys⟩, w.withNotify m closed)
        (⟨latestHash, lastGenerated, .ranging []⟩, w.withNotify m' closed')
  | [], _, _, _, _, _, _, h => by cases h; exact .refl
  | ⟨k, v⟩ :: rest, m, closed, m', closed', hnd, hl, h => by
    obtain ⟨hk, hnd⟩ := List.nodupKeys_cons.mp hnd
    have hv : m.lookup k = some v := hl _ (List.mem_cons_self _ _)
    have hrest : ∀ e ∈ rest, m.lookup e.1 = some e.2 := fun e he => hl e (List.mem_cons_of_mem _ he)
    simp only [closeEntries] at h
    split at h
    · rename_i hne
      obtain ⟨c₁, hc, h⟩ := Option.bind_eq_some.mp h
      have hrest' : ∀ e ∈ rest, (m.erase k).lookup e.1 = some e.2 := fun e he => by
        rw [AList.lookup_erase_ne fun he' : e.1 = k =>
          hk (show k ∈ rest.keys from he' ▸ List.mem_keys_of_mem he)]
        exact hrest e he
      refine .head ⟨_, .refl _, ?_⟩ ((soloRun_closing latestHash lastGenerated w k rest.keys m
        _ closed c₁ hc).trans (.head ⟨_, .refl _, rfl⟩
          (soloRun_ranging latestHash lastGenerated w rest (m.erase k) c₁ m' closed' hnd hrest' h)))
      simp only [notifierStep, List.keys_cons, Work.withNotify, hv, hne, ↓reduceIte]
    · rename_i heq
      refine .head ⟨_, .refl _, ?_⟩
        (soloRun_ranging latestHash lastGenerated w rest m closed m' closed' hnd hrest h)
      rw [Bool.not_eq_true] at heq
      simp only [notifierStep, List.keys_cons, Work.withNotify, hv, heq, Bool.false_eq_true,
        ↓reduceIte]

/-- **A goroutine run alone is `NotifyLongPollers`**: it ends with the map and the closed
channels of the locked call. -/
theorem soloRun_notifyLongPollers {n : Notifier} (hn : n.pc = .start) {w : Work}
    {m' : NotifyMap} {closed' : List Chan}
    (h : notifyLongPollers n.latestHash n.lastGenerated w.state.notifyMap w.closed =
      some (m', closed')) :
    SoloRun (n, w) ({ n with pc := .done }, w.withNotify m' closed') := by
  obtain ⟨latestHash, lastGenerated, pc⟩ := n
  subst hn
  obtain ⟨⟨m₁, c₁⟩, h₁, h₂⟩ := Option.bind_eq_some.mp h
  have hl : ∀ e ∈ w.state.notifyMap.entries, w.state.notifyMap.lookup e.1 = some e.2 :=
    fun e he => AList.mem_lookup_iff.mpr he
  refine .head ⟨w.state.notifyMap.keys, .refl _, rfl⟩ (.trans (soloRun_ranging latestHash
    lastGenerated w _ _ _ m₁ c₁ w.state.notifyMap.nodupKeys hl h₁) (.single ⟨_, .refl _, ?_⟩))
  dsimp only at h₂
  simp only [notifierStep, Work.withNotify, h₂, Option.map_some']

section Simulation

theorem list_set_of_getElem? {α : Type} {l : List α} {i : Nat} {a : α} (h : l[i]? = some a) :
    l.set i a = l := by
  refine List.ext_getElem? fun j => ?_
  rw [List.getElem?_set]
  split
  · subst_vars
    simp [(List.getElem?_eq_some_iff.mp h).1, h]
  · rfl

variable {merkleRoot : List MsgTx → Hash} {addrs : List Address} {G : Env → Prop}

/-- A goroutine's solo run is a run of the server. -/
theorem SoloRun.toServer {s : Server} {i : Nat} {n : Notifier} (hi : s.notifiers[i]? = some n)
    {b : Notifier × Work} (h : SoloRun (n, s.work) b) :
    Relation.ReflTransGen (Server.Step merkleRoot addrs G) s ⟨b.2, s.notifiers.set i b.1⟩ := by
  induction h with
  | refl => rw [list_set_of_getElem? hi]
  | @tail a c _ hs ih =>
    obtain ⟨order, hperm, hstep⟩ := hs
    obtain ⟨n₂, w₂⟩ := c
    have hlt : i < s.notifiers.length := (List.getElem?_eq_some_iff.mp hi).1
    refine ih.tail ?_
    rw [← List.set_set a.1 n₂ s.notifiers i]
    exact .notify (s := ⟨a.2, _⟩) i order (List.getElem?_set_self (by simpa using hlt)) hperm hstep

/-- **The locked runs are runs of the code**: every state that a sequence of locked sections
reaches, the goroutines reach too, each `NotifyBlockConnected` goroutine running alone. -/
theorem Reachable.server {w : Work} (h : Reachable merkleRoot addrs G w) :
    ∃ s, Server.Reachable merkleRoot addrs G s ∧ s.work = w := by
  induction h with
  | refl => exact ⟨Server.init, .refl, rfl⟩
  | tail _ hs ih =>
    obtain ⟨s, hr, rfl⟩ := ih
    cases hs with
    | request env u henv hc hu => exact ⟨_, hr.tail (.request env u henv hc hu), rfl⟩
    | longPoll env u lp henv hc hl => exact ⟨_, hr.tail (.longPoll env u lp henv hc hl), rfl⟩
    | mempoolTx lastUpdated now hm => exact ⟨_, hr.tail (.mempoolTx lastUpdated now hm), rfl⟩
    | blockConnected blockHash hb =>
      obtain ⟨⟨m', closed'⟩, hn, rfl⟩ := Option.map_eq_some'.mp hb
      have hi : (s.notifiers ++ [⟨blockHash, s.work.state.lastTxUpdate, .start⟩])[
          s.notifiers.length]? = some ⟨blockHash, s.work.state.lastTxUpdate, .start⟩ := by simp
      exact ⟨_, (hr.tail (.blockConnected blockHash)).trans
        (SoloRun.toServer (s := ⟨_, _⟩) hi (soloRun_notifyLongPollers rfl hn)), rfl⟩

end Simulation

/-- A waiter registered under `(7, 100)` and released by the goroutine of block `8`, run alone. -/
theorem Reachable.server_release :
    ∃ w, 0 ∈ w.closed ∧ ∃ s, Server.Reachable (fun _ => 0) [] (fun _ => True) s ∧ s.work = w :=
  ⟨_, by decide, Reachable.server (.tail (.tail (.tail .refl
    (.request (Env.fixed 7 50000000000 100000000000) true trivial rfl rfl))
    (.longPoll (Env.fixed 7 50000000000 100500000000) true (some (7, 100)) trivial rfl rfl))
    (.blockConnected 8 rfl))⟩

/-- **Without the lock, channels are closed twice and waiters are lost.**  First: a long poll
waits on channel `0` under `(7, 100)`; blocks `8` and `9` are connected, and both goroutines
reach hash `7` before either deletes it; the first closes channel `0` and the second's next
step closes it again.  Second: the goroutine of a block `8` that is no longer the tip reaches
hash `9` of the current template and closes channel `0`; a new template for `9` is built and a
long poll registers channel `1` under `9`; the goroutine then deletes `9`, and channel `1` is
neither registered nor closed. -/
theorem notifier_races :
    (∃ s, Server.Reachable (fun _ => 0) [] (fun _ => True) s ∧
      ∃ n ∈ s.notifiers, notifierStep [] n s.work = none) ∧
    (∃ s, Server.Reachable (fun _ => 0) [] (fun _ => True) s ∧
      ∃ c < s.work.nextChan, c ∉ chans s.work.state.notifyMap ∧ c ∉ s.work.closed) := by
  -- two goroutines close channel `0`
  have r₁ : Server.Reachable (fun _ => 0) [] (fun _ => True) _ :=
    .tail (.tail (.tail (.tail (.tail (.tail (.tail (.tail (.tail .refl
    (.request (Env.fixed 7 50000000000 100000000000) true trivial rfl rfl))
    (.longPoll (Env.fixed 7 50000000000 100500000000) true (some (7, 100)) trivial rfl rfl))
    (.blockConnected 8))
    (.blockConnected 9))
    (.notify 0 _ rfl (.refl _) rfl))
    (.notify 0 _ rfl (.refl _) rfl))
    (.notify 0 _ rfl (.refl _) rfl))
    (.notify 1 _ rfl (.refl _) rfl))
    (.notify 1 _ rfl (.refl _) rfl)
  -- a goroutine deletes hash `9` after channel `1` was registered there
  have r₂ : Server.Reachable (fun _ => 0) [] (fun _ => True) _ :=
    .tail (.tail (.tail (.tail (.tail (.tail (.tail (.tail (.tail .refl
    (.blockConnected 8))
    (.request (Env.fixed 9 50000000000 100000000000) true trivial rfl rfl))
    (.longPoll (Env.fixed 9 50000000000 100500000000) true (some (9, 100)) trivial rfl rfl))
    (.notify 0 _ rfl (.refl _) rfl))
    (.notify 0 _ rfl (.refl _) rfl))
    (.notify 0 _ rfl (.refl _) rfl))
    (.request (Env.fixed 9 100500000000 170000000000) true trivial rfl rfl))
    (.longPoll (Env.fixed 9 100500000000 170500000000) true (some (9, 170)) trivial rfl rfl))
    (.notify 0 _ rfl (.refl _) rfl)
  exact ⟨⟨_, r₁, _, List.getElem?_mem (n := 1) rfl, rfl⟩, ⟨_, r₂, 1, by decide, by decide, by decide⟩⟩

end Pod.Gbt
