import Pod.Node.PeerState

/-!
# Node — `OnGetData`'s channels

`OnGetData` serves a `getdata` message item by item through `PushTxMsg`, `PushBlockMsg` and
`PushMerkleBlockMsg`, which queue messages on the peer.  It paces itself with buffered
channels of one slot: every third item gets a fresh channel, the last item (when nothing was
missing so far) gets `doneChan`, and each push first waits on the previous item's channel.  A
queued message's channel is signalled by the peer's out handler once the message is written.

The model lists what the goroutine running `OnGetData` does to channels (`Op`), and `runOps`
plays the list: a receive needs a signal already sent or queued, and a send needs a free
slot.  `OnGetData` returns exactly when `runOps` does not fail.

* `getDataLoop_runs`, `onGetData_runs`: when the last item's type is one the switch serves,
  `OnGetData` returns, whatever each lookup finds.
* `onGetData_blocks_on_unknown_last`: an item of an unhandled type last, after one served
  transaction, leaves the final `<-doneChan` with nothing to receive.
-/

namespace Pod.Node

open Pod

/-- The inventory types `OnGetData`'s switch tells apart. -/
inductive InvType where
  | witnessTx
  | tx
  | witnessBlock
  | block
  | filteredWitnessBlock
  | filteredBlock
  | other (code : UInt32)
  deriving DecidableEq, Repr

/-- An inventory item, with what the lookups its push function makes return: the mempool or
block database has it (`found`), the peer has a bloom filter loaded, and how many of the
block's transactions the filter matches. -/
structure InvItem where
  type : InvType
  hash : Nat
  found : Bool
  filterLoaded : Bool
  matched : Nat
  deriving DecidableEq, Repr

/-- `doneChan`, or the channel made for the item at an index. -/
inductive ChanId where
  | done
  | fresh (i : Nat)
  deriving DecidableEq, Repr

/-- What the goroutine does to a channel: queue a message whose channel (if any) the out
handler signals later, send on a channel itself, or receive from one. -/
inductive Op where
  | queue (c : Option ChanId)
  | send (c : ChanId)
  | recv (c : ChanId)
  deriving DecidableEq, Repr

/-- `c <- struct{}{}` when `c` is not nil. -/
def sendIf : Option ChanId → List Op
  | some c => [.send c]
  | none => []

/-- `<-waitChan` when it is not nil. -/
def recvIf : Option ChanId → List Op
  | some c => [.recv c]
  | none => []

/-- `PushTxMsg`: the operations, and whether it failed. -/
def pushTxMsg (item : InvItem) (doneChan waitChan : Option ChanId) : List Op × Bool :=
  if item.found then (recvIf waitChan ++ [.queue doneChan], false)
  else (sendIf doneChan, true)

/-- `PushBlockMsg`: the operations, whether it failed, and `ContinueHash` after it.  When the
block is the one `ContinueHash` names, an `inv` follows it and carries `doneChan`. -/
def pushBlockMsg (continueHash : Option Nat) (item : InvItem) (doneChan waitChan : Option ChanId) :
    List Op × Bool × Option Nat :=
  if item.found then
    if continueHash = some item.hash then
      (recvIf waitChan ++ [.queue none, .queue doneChan], false, none)
    else (recvIf waitChan ++ [.queue doneChan], false, continueHash)
  else (sendIf doneChan, true, continueHash)

/-- `PushMerkleBlockMsg`: the operations and whether it failed.  The merkle block carries
`doneChan` when no transaction matched; otherwise the last matched transaction does. -/
def pushMerkleBlockMsg (item : InvItem) (doneChan waitChan : Option ChanId) : List Op × Bool :=
  if !item.filterLoaded then (sendIf doneChan, false)
  else if item.found then
    if item.matched = 0 then (recvIf waitChan ++ [.queue doneChan], false)
    else (recvIf waitChan ++ .queue none ::
      (List.range item.matched).map fun j => .queue (if j = item.matched - 1 then doneChan else none),
      false)
  else (sendIf doneChan, true)

/-- The switch of `OnGetData`: the push for the item's type, or `none` for an unhandled type
(`continue`). -/
def pushFor (continueHash : Option Nat) (item : InvItem) (c w : Option ChanId) :
    Option (List Op × Bool × Option Nat) :=
  match item.type with
  | .witnessTx | .tx => let r := pushTxMsg item c w; some (r.1, r.2, continueHash)
  | .witnessBlock | .block => some (pushBlockMsg continueHash item c w)
  | .filteredWitnessBlock | .filteredBlock =>
    let r := pushMerkleBlockMsg item c w; some (r.1, r.2, continueHash)
  | .other _ => none

/-- The loop state of `OnGetData`: `numAdded`, the not-found count, `waitChan` and the peer's
`ContinueHash`. -/
structure GetDataLoop where
  numAdded : Nat
  notFound : Nat
  waitChan : Option ChanId
  continueHash : Option Nat

/-- The loop of `OnGetData` from index `i` on, over a message of `length` items. -/
def getDataLoop (length : Nat) : Nat → GetDataLoop → List InvItem → List Op × GetDataLoop
  | _, st, [] => ([], st)
  | i, st, item :: rest =>
    let c : Option ChanId :=
      if i = length - 1 ∧ st.notFound = 0 then some .done
      else if (i + 1) % 3 = 0 then some (.fresh i) else none
    match pushFor st.continueHash item c st.waitChan with
    | none => getDataLoop length (i + 1) st rest
    | some (ops, failed, ch) =>
      let tail := if failed ∧ i = length - 1 then recvIf c else []
      let st' : GetDataLoop := ⟨st.numAdded + 1, st.notFound + if failed then 1 else 0, c, ch⟩
      let r := getDataLoop length (i + 1) st' rest
      (ops ++ tail ++ r.1, r.2)

/-- `OnGetData`: the loop, then the `notfound` message on `doneChan` when something was
missing, then the final `<-doneChan` when any item was served. -/
def onGetData (continueHash : Option Nat) (items : List InvItem) : List Op :=
  let r := getDataLoop items.length 0 ⟨0, 0, none, continueHash⟩ items
  r.1 ++ (if r.2.notFound ≠ 0 then [.queue (some .done)] else []) ++
    (if r.2.numAdded > 0 then [.recv .done] else [])

/-- One operation on the channels' unreceived signals: `none` when a receive has nothing to
receive (the goroutine waits forever) or a send finds the slot taken. -/
def stepOp (o : ChanId → Nat) : Op → Option (ChanId → Nat)
  | .queue none => some o
  | .queue (some c) | .send c => if o c = 0 then some (Function.update o c 1) else none
  | .recv c => if o c = 0 then none else some (Function.update o c (o c - 1))

/-- The operations in order. -/
def runOps : List Op → (ChanId → Nat) → Option (ChanId → Nat)
  | [], o => some o
  | op :: ops, o => (stepOp o op).bind (runOps ops)

/-! ### Playing the operations -/

theorem runOps_append (a b : List Op) (o : ChanId → Nat) :
    runOps (a ++ b) o = (runOps a o).bind (runOps b) := by
  induction a generalizing o with
  | nil => rfl
  | cons op a ih =>
    simp only [List.cons_append, runOps]
    cases stepOp o op <;> simp [ih]

/-- The signal counts after a receive on `w`, when it holds its one signal. -/
def clearChan : Option ChanId → (ChanId → Nat) → ChanId → Nat
  | some x, o => Function.update o x 0
  | none, o => o

/-- The signal counts after a send or a queued message on `c`. -/
def markChan : Option ChanId → (ChanId → Nat) → ChanId → Nat
  | some x, o => Function.update o x 1
  | none, o => o

theorem runOps_recvIf {w : Option ChanId} {o : ChanId → Nat} (hw : ∀ x, w = some x → o x = 1) :
    runOps (recvIf w) o = some (clearChan w o) := by
  cases w with
  | none => rfl
  | some x => simp [recvIf, runOps, stepOp, clearChan, hw x rfl]

theorem runOps_sendIf {c : Option ChanId} {o : ChanId → Nat} (hc : ∀ x, c = some x → o x = 0) :
    runOps (sendIf c) o = some (markChan c o) := by
  cases c with
  | none => rfl
  | some x => simp [sendIf, runOps, stepOp, markChan, hc x rfl]

theorem runOps_queue {c : Option ChanId} {o : ChanId → Nat} (hc : ∀ x, c = some x → o x = 0) :
    runOps [.queue c] o = some (markChan c o) := by
  cases c with
  | none => rfl
  | some x => simp [runOps, stepOp, markChan, hc x rfl]

/-- The matched transactions of a merkle block: `doneChan` on the last only. -/
theorem runOps_matched {c : Option ChanId} {o : ChanId → Nat} (hc : ∀ x, c = some x → o x = 0)
    (n : Nat) : runOps ((List.range (n + 1)).map fun j => .queue (if j = n then c else none)) o =
      some (markChan c o) := by
  have hpre : ∀ k ≤ n, runOps ((List.range k).map fun j => .queue (if j = n then c else none)) o =
      some o := by
    intro k hk
    induction k with
    | zero => rfl
    | succ k ih =>
      rw [List.range_succ, List.map_append, runOps_append, ih (by omega)]
      simp [runOps, stepOp, show k ≠ n by omega]
  rw [List.range_succ, List.map_append, runOps_append, hpre n le_rfl]
  simpa using runOps_queue hc

/-- A channel other than the ones a push touches keeps its count. -/
theorem markChan_clearChan_of_ne {c w : Option ChanId} {o : ChanId → Nat} {y : ChanId}
    (hc : c ≠ some y) (hw : w ≠ some y) : markChan c (clearChan w o) y = o y := by
  cases c <;> cases w <;>
    simp_all [markChan, clearChan, Function.update_noteq, Ne.symm]

theorem clearChan_eq_zero {w : Option ChanId} {o : ChanId → Nat} {x : ChanId} (h : o x = 0) :
    clearChan w o x = 0 := by
  cases w with
  | none => exact h
  | some y => by_cases hxy : x = y <;> simp [clearChan, Function.update, hxy, h]

/-- A success: the push takes the signal it waited for and queues its message on `c`. -/
theorem runOps_served {c w : Option ChanId} {o : ChanId → Nat} (hc : ∀ x, c = some x → o x = 0)
    (hw : ∀ x, w = some x → o x = 1) (mid : List Op) (hmid : runOps mid (clearChan w o) = some (clearChan w o)) :
    runOps (recvIf w ++ mid ++ [.queue c]) o = some (markChan c (clearChan w o)) := by
  rw [runOps_append, runOps_append, runOps_recvIf hw, Option.some_bind, hmid, Option.some_bind]
  exact runOps_queue fun x hx => clearChan_eq_zero (hc x hx)

/-- What a push does to the channels: it takes the signal it waited for and queues on `c`,
or (a failed lookup, or no filter) sends on `c` itself and waits for nothing. -/
def PushRuns (c w : Option ChanId) (o : ChanId → Nat) (ops : List Op) (failed : Bool) : Prop :=
  (runOps ops o = some (markChan c (clearChan w o)) ∧ failed = false) ∨
    (ops = sendIf c ∧ runOps ops o = some (markChan c o))

section Push

variable {item : InvItem} {c w : Option ChanId} {o : ChanId → Nat}
  (hc : ∀ x, c = some x → o x = 0) (hw : ∀ x, w = some x → o x = 1)
include hc hw

theorem pushTxMsg_runs : PushRuns c w o (pushTxMsg item c w).1 (pushTxMsg item c w).2 := by
  unfold pushTxMsg
  split
  · exact .inl ⟨by simpa using runOps_served hc hw [] rfl, rfl⟩
  · exact .inr ⟨rfl, runOps_sendIf hc⟩

theorem pushBlockMsg_runs (ch : Option Nat) :
    PushRuns c w o (pushBlockMsg ch item c w).1 (pushBlockMsg ch item c w).2.1 := by
  unfold pushBlockMsg
  split
  · split
    · exact .inl ⟨by simpa using runOps_served hc hw [.queue none] rfl, rfl⟩
    · exact .inl ⟨by simpa using runOps_served hc hw [] rfl, rfl⟩
  · exact .inr ⟨rfl, runOps_sendIf hc⟩

theorem pushMerkleBlockMsg_runs :
    PushRuns c w o (pushMerkleBlockMsg item c w).1 (pushMerkleBlockMsg item c w).2 := by
  unfold pushMerkleBlockMsg
  split
  · exact .inr ⟨rfl, runOps_sendIf hc⟩
  split
  · split
    · exact .inl ⟨by simpa using runOps_served hc hw [] rfl, rfl⟩
    · rename_i hm
      obtain ⟨n, hn⟩ := Nat.exists_eq_succ_of_ne_zero hm
      refine .inl ⟨?_, rfl⟩
      rw [← List.singleton_append, ← List.append_assoc, runOps_append, runOps_append,
        runOps_recvIf hw, Option.some_bind]
      simp only [runOps, stepOp, Option.some_bind, hn, Nat.succ_sub_one]
      exact runOps_matched (fun x hx => clearChan_eq_zero (hc x hx)) n
  · exact .inr ⟨rfl, runOps_sendIf hc⟩

/-- **A push signals its channel once**, for every handled type and every lookup outcome. -/
theorem pushFor_runs {ch ch' : Option Nat} {ops : List Op} {failed : Bool}
    (hp : pushFor ch item c w = some (ops, failed, ch')) : PushRuns c w o ops failed := by
  cases ht : item.type <;>
    simp only [pushFor, ht, Option.some.injEq, Prod.mk.injEq, reduceCtorEq] at hp
  case witnessTx | tx => obtain ⟨rfl, rfl, -⟩ := hp; exact pushTxMsg_runs hc hw
  case witnessBlock | block =>
    have h : PushRuns c w o (pushBlockMsg ch item c w).1 _ := pushBlockMsg_runs hc hw ch
    rw [hp] at h; exact h
  case filteredWitnessBlock | filteredBlock =>
    obtain ⟨rfl, rfl, -⟩ := hp; exact pushMerkleBlockMsg_runs hc hw

end Push

@[simp] theorem markChan_self {x : ChanId} (o : ChanId → Nat) : markChan (some x) o x = 1 := by
  simp [markChan]

theorem markChan_of_ne {c : Option ChanId} {o : ChanId → Nat} {y : ChanId} (hc : c ≠ some y) :
    markChan c o y = o y := by
  cases c <;> simp_all [markChan, Function.update_noteq, Ne.symm]

/-- What the rest of the loop needs of a push. -/
theorem PushRuns.spec {c w : Option ChanId} {o : ChanId → Nat} {ops : List Op} {failed : Bool}
    (h : PushRuns c w o ops failed) : ∃ o', runOps ops o = some o' ∧
      (∀ x, c = some x → o' x = 1) ∧ (∀ y, c ≠ some y → w ≠ some y → o' y = o y) ∧
      (failed = true → o' = markChan c o) := by
  rcases h with ⟨h, rfl⟩ | ⟨-, h⟩
  · refine ⟨_, h, fun x hx => ?_, fun y hc hw => markChan_clearChan_of_ne hc hw, by simp⟩
    subst hx; exact markChan_self _
  · refine ⟨_, h, fun x hx => ?_, fun y hc _ => markChan_of_ne hc, fun _ => rfl⟩
    subst hx; exact markChan_self _

/-! ### The loop -/

/-- The types `OnGetData`'s switch serves. -/
def InvType.handled : InvType → Bool
  | .other _ => false
  | _ => true

theorem pushFor_eq_none_iff {ch : Option Nat} {item : InvItem} {c w : Option ChanId} :
    pushFor ch item c w = none ↔ item.type.handled = false := by
  unfold pushFor InvType.handled
  split <;> simp_all

/-- Before the item at `i`: no signal on `doneChan` nor on the channels of items `i` on, and
the channel the next push waits on holds its one signal. -/
structure LoopOk (i : Nat) (o : ChanId → Nat) (st : GetDataLoop) : Prop where
  done : o .done = 0
  future : ∀ j, i ≤ j → o (.fresh j) = 0
  wait : ∀ x, st.waitChan = some x → o x = 1 ∧ ∃ j < i, x = .fresh j

/-- After the loop: the `notfound` message and the final receive can both go through. -/
def EndOk (o : ChanId → Nat) (st : GetDataLoop) : Prop :=
  (st.numAdded = 0 ∧ st.notFound = 0) ∨ (o .done = 1 ∧ st.notFound = 0) ∨
    (o .done = 0 ∧ st.notFound ≠ 0)

theorem EndOk.runs {o : ChanId → Nat} {st : GetDataLoop} (h : EndOk o st) :
    (runOps ((if st.notFound ≠ 0 then [.queue (some .done)] else []) ++
      (if st.numAdded > 0 then [.recv .done] else [])) o).isSome := by
  rcases h with ⟨h₁, h₂⟩ | ⟨h₁, h₂⟩ | ⟨h₁, h₂⟩
  · simp [h₁, h₂, runOps]
  · by_cases hn : st.numAdded > 0 <;> simp [h₂, hn, runOps, stepOp, h₁]
  · by_cases hn : st.numAdded > 0 <;> simp [h₂, hn, runOps, stepOp, h₁]

/-- The channel of a middle item is never `doneChan`. -/
theorem LoopOk.step {i : Nat} {o : ChanId → Nat} {st : GetDataLoop} (h : LoopOk i o st)
    {c : Option ChanId} (hc : c = some (.fresh i) ∨ c = none) {item : InvItem} {ops : List Op}
    {failed : Bool} {ch : Option Nat}
    (hp : pushFor st.continueHash item c st.waitChan = some (ops, failed, ch)) :
    ∃ o', runOps ops o = some o' ∧
      LoopOk (i + 1) o' ⟨st.numAdded + 1, st.notFound + if failed then 1 else 0, c, ch⟩ := by
  have hc₀ : ∀ x, c = some x → o x = 0 := by
    rintro x rfl; rcases hc with hc | hc <;> cases hc; exact h.future i le_rfl
  obtain ⟨o', hr, hmark, hkeep, -⟩ := (pushFor_runs hc₀ (fun x hx => (h.wait x hx).1) hp).spec
  have hw : ∀ y, (st.waitChan = some y) → ∃ j < i, y = .fresh j := fun y hy => (h.wait y hy).2
  refine ⟨o', hr, ⟨?_, fun j hj => ?_, fun x hx => ?_⟩⟩
  · rw [hkeep _ (by rcases hc with rfl | rfl <;> simp) (fun he => by
      obtain ⟨j, -, hj⟩ := hw _ he; cases hj)]
    exact h.done
  · rw [hkeep _ (by rcases hc with rfl | rfl <;> simp; omega) (fun he => by
      obtain ⟨j', hj', hj⟩ := hw _ he; cases hj; omega)]
    exact h.future j (by omega)
  · refine ⟨hmark x hx, ?_⟩
    rcases hc with rfl | rfl <;> cases hx
    exact ⟨i, by omega, rfl⟩

theorem clearChan_of_ne {c : Option ChanId} {o : ChanId → Nat} {y : ChanId} (hc : c ≠ some y) :
    clearChan c o y = o y := by
  cases c <;> simp_all [clearChan, Function.update_noteq, Ne.symm]

theorem LoopOk.skip {i : Nat} {o : ChanId → Nat} {st : GetDataLoop} (h : LoopOk i o st) :
    LoopOk (i + 1) o st :=
  ⟨h.done, fun j hj => h.future j (by omega), fun x hx =>
    let ⟨h₁, j, hj, he⟩ := h.wait x hx
    ⟨h₁, j, by omega, he⟩⟩

/-- The last item, when its type is handled: `doneChan` gets its signal, or something is
missing and the `notfound` message will carry it. -/
theorem LoopOk.last {i : Nat} {o : ChanId → Nat} {st : GetDataLoop} (h : LoopOk i o st)
    {c : Option ChanId}
    (hc : (st.notFound = 0 ∧ c = some .done) ∨ (st.notFound ≠ 0 ∧ (c = some (.fresh i) ∨ c = none)))
    {item : InvItem} {ops : List Op} {failed : Bool} {ch : Option Nat}
    (hp : pushFor st.continueHash item c st.waitChan = some (ops, failed, ch)) :
    ∃ o', runOps (ops ++ if failed then recvIf c else []) o = some o' ∧
      EndOk o' ⟨st.numAdded + 1, st.notFound + if failed then 1 else 0, c, ch⟩ := by
  have hc₀ : ∀ x, c = some x → o x = 0 := by
    rintro x rfl
    rcases hc with ⟨-, hc⟩ | ⟨-, hc | hc⟩ <;> cases hc
    · exact h.done
    · exact h.future i le_rfl
  have hwd : st.waitChan ≠ some .done := fun he => by
    obtain ⟨j, -, hj⟩ := (h.wait _ he).2; cases hj
  obtain ⟨o', hr, hmark, hkeep, hfail⟩ := (pushFor_runs hc₀ (fun x hx => (h.wait x hx).1) hp).spec
  cases failed with
  | false =>
    refine ⟨o', by simpa using hr, ?_⟩
    rcases hc with ⟨h0, rfl⟩ | ⟨h0, hc⟩
    · exact .inr (.inl ⟨hmark _ rfl, by simpa using h0⟩)
    · refine .inr (.inr ⟨?_, by simpa using h0⟩)
      rw [hkeep _ (by rcases hc with rfl | rfl <;> simp) hwd]
      exact h.done
  | true =>
    have ho' := hfail rfl
    refine ⟨clearChan c o', ?_, .inr (.inr ⟨?_, by simp⟩)⟩
    · rw [if_pos rfl, runOps_append, hr, Option.some_bind]
      exact runOps_recvIf hmark
    · rcases hc with ⟨-, rfl⟩ | ⟨-, hc⟩
      · simp [clearChan]
      · have hne : c ≠ some .done := by rcases hc with rfl | rfl <;> simp
        rw [clearChan_of_ne hne, ho', markChan_of_ne hne]
        exact h.done

/-- **The loop runs** when the last item's type is handled, for every lookup outcome. -/
theorem getDataLoop_runs (length : Nat) : ∀ (rest : List InvItem) (i : Nat) (st : GetDataLoop)
    (o : ChanId → Nat), rest ≠ [] → i + rest.length = length →
    (∀ item, rest.getLast? = some item → item.type.handled = true) → LoopOk i o st →
    ∃ o', runOps (getDataLoop length i st rest).1 o = some o' ∧
      EndOk o' (getDataLoop length i st rest).2
  | [], _, _, _, hne, _, _, _ => absurd rfl hne
  | [item], i, st, o, _, hlen, hlast, h => by
    have hi : i = length - 1 := by simp at hlen; omega
    have hh := hlast item rfl
    unfold getDataLoop
    dsimp only
    generalize hcd : (if i = length - 1 ∧ st.notFound = 0 then some ChanId.done
      else if (i + 1) % 3 = 0 then some (ChanId.fresh i) else none) = c
    -- the last item signals `doneChan` unless something is missing already
    have hc : (st.notFound = 0 ∧ c = some .done) ∨
        (st.notFound ≠ 0 ∧ (c = some (.fresh i) ∨ c = none)) := by
      subst hcd
      by_cases h0 : st.notFound = 0
      · exact .inl ⟨h0, by simp [hi, h0]⟩
      · refine .inr ⟨h0, ?_⟩
        simp only [h0, and_false, if_false]
        split <;> simp
    split
    · rename_i hn; exact absurd (pushFor_eq_none_iff.mp hn) (by simp [hh])
    · rename_i ops failed ch hp
      obtain ⟨o', hr, hend⟩ := h.last hc hp
      refine ⟨o', ?_, hend⟩
      simpa [getDataLoop, hi] using hr
  | item :: item' :: rest, i, st, o, _, hlen, hlast, h => by
    have hi1 : i ≠ length - 1 := by simp at hlen; omega
    have hi : ¬(i = length - 1 ∧ st.notFound = 0) := fun h => hi1 h.1
    have hlast' : ∀ x, (item' :: rest).getLast? = some x → x.type.handled = true :=
      fun x hx => hlast x (by simpa [List.getLast?_cons_cons] using hx)
    have hlen' : i + 1 + (item' :: rest).length = length := by simp at hlen ⊢; omega
    unfold getDataLoop
    dsimp only
    rw [if_neg hi]
    generalize hcd : (if (i + 1) % 3 = 0 then some (ChanId.fresh i) else none) = c
    have hc : c = some (.fresh i) ∨ c = none := by subst hcd; split <;> simp
    split
    · exact getDataLoop_runs length _ (i + 1) st o (List.cons_ne_nil _ _) hlen' hlast' h.skip
    · rename_i ops failed ch hp
      obtain ⟨o', hr, h'⟩ := h.step hc hp
      obtain ⟨o'', hr', hend⟩ :=
        getDataLoop_runs length _ (i + 1) _ o' (List.cons_ne_nil _ _) hlen' hlast' h'
      refine ⟨o'', ?_, hend⟩
      rw [runOps_append, runOps_append, hr, Option.some_bind, if_neg fun h => hi1 h.2]
      exact hr'

/-- **`OnGetData` returns** on every `getdata` message whose last item has a type the switch
serves, whatever each lookup finds: every receive it makes has its signal, and no send finds
its slot taken. -/
theorem onGetData_runs (continueHash : Option Nat) (items : List InvItem)
    (hlast : ∀ item, items.getLast? = some item → item.type.handled = true) :
    (runOps (onGetData continueHash items) fun _ => 0).isSome := by
  unfold onGetData
  dsimp only
  rw [List.append_assoc, runOps_append]
  cases items with
  | nil => simp [getDataLoop, runOps]
  | cons item rest =>
    obtain ⟨o', hr, hend⟩ := getDataLoop_runs (item :: rest).length (item :: rest) 0 ⟨0, 0, none, continueHash⟩
      (fun _ => 0) (List.cons_ne_nil _ _) (by simp) hlast
      ⟨rfl, fun _ _ => rfl, fun _ hx => by cases hx⟩
    rw [hr, Option.some_bind]
    exact hend.runs

/-- A transaction and then a block. -/
theorem onGetData_runs_tx_block :
    (runOps (onGetData none [⟨.tx, 1, true, false, 0⟩, ⟨.block, 2, true, false, 0⟩])
      fun _ => 0).isSome :=
  onGetData_runs none _ fun _ h => by cases h; rfl

/-- **`OnGetData` hangs**: a served transaction followed by an item of an unhandled type.  The
last item is given `doneChan` but skipped, nothing is missing, and the final `<-doneChan`
waits for a signal no one sends. -/
theorem onGetData_blocks_on_unknown_last :
    runOps (onGetData none [⟨.tx, 1, true, false, 0⟩, ⟨.other 7, 2, true, false, 0⟩])
      (fun _ => 0) = none := rfl

end Pod.Node
