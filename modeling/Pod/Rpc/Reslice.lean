import Pod.Support.Go
import Pod.Support.Slice

/-!
# RPC — handlers that slice their replies

Two handlers cut their reply out of a slice with a slice expression `s[low:high]`, which panics
unless `low ≤ high ≤ cap(s)` (`Window.slice`).  `HandleGetAddedNodeInfo` keeps the persistent
peers at one address by re-slicing `peers = peers[i:i+1]` inside a `range` over the slice it
started with; `FetchMempoolTxnsForAddress` pages the mempool's transactions with bounds computed
in `uint32`.

* `handleGetAddedNodeInfo_not_added`: the error comes exactly when no persistent peer has the
  address.
* `handleGetAddedNodeInfo_second_match`: a second peer at the address makes the loop re-slice
  the slice it already cut, reporting another peer or panicking.
* `fetchMempoolTxnsForAddress_eq_none_iff`: the slice panics exactly when
  `numToSkip + numRequested` overflows and `numToSkip` is within the transactions.
-/

namespace Pod.Rpc

open Pod

/-! ### `getaddednodeinfo` -/

section AddedNodes

variable {π : Type} (addr : π → GoString)

/-- The message of `ErrRPCClientNodeNotAdded`. -/
def nodeNotAdded : GoString := GoString.ofAscii "Node has not been added"

/-- The loop of `HandleGetAddedNodeInfo` from index `i`: the `range` visits the slice
`PersistentPeers` returned, while each peer whose `Addr()` is `node` re-slices the current
`peers` to `peers[i:i+1]` and sets `found`; `none` is a panic. -/
def addedNodeLoop (node : GoString) : Nat → List π → Window π × Bool → Option (Window π × Bool)
  | _, [], acc => some acc
  | i, peer :: rest, (peers, found) =>
    if addr peer = node then
      (peers.slice i (i + 1)).bind fun peers => addedNodeLoop node (i + 1) rest (peers, true)
    else addedNodeLoop node (i + 1) rest (peers, found)

/-- `HandleGetAddedNodeInfo`: the persistent peers it reports, all of them or those at
`c.Node`, or the error `Node has not been added`; `none` is a panic.  Without the `dns` flag the
reply is their addresses, with it one DNS lookup each, which is not modelled. -/
def handleGetAddedNodeInfo (peers : Window π) (node : Option GoString) :
    Option (Except GoString (List π)) :=
  match node with
  | none => some (.ok peers.elems)
  | some node =>
    (addedNodeLoop addr node 0 peers.elems (peers, false)).map fun (peers, found) =>
      if found then .ok peers.elems else .error nodeNotAdded

variable {addr} {node : GoString}

theorem addedNodeLoop_of_forall_ne :
    ∀ {i : Nat} {l : List π} (acc : Window π × Bool), (∀ p ∈ l, addr p ≠ node) →
      addedNodeLoop addr node i l acc = some acc
  | _, [], _, _ => rfl
  | i, p :: l, (peers, found), h => by
    rw [addedNodeLoop, if_neg (h p (List.mem_cons_self _ _))]
    exact addedNodeLoop_of_forall_ne _ fun q hq => h q (List.mem_cons_of_mem _ hq)

/-- The loop sets `found` exactly when some peer it visits is at `node`. -/
theorem found_of_addedNodeLoop :
    ∀ {i : Nat} {l : List π} {peers peers' : Window π} {found found' : Bool},
      addedNodeLoop addr node i l (peers, found) = some (peers', found') →
        (found' = true ↔ found = true ∨ ∃ p ∈ l, addr p = node)
  | _, [], _, _, _, _, h => by cases h; simp
  | i, p :: l, peers, peers', found, found', h => by
    rw [addedNodeLoop] at h
    split at h
    · obtain ⟨w, -, h⟩ := Option.bind_eq_some.mp h
      rw [found_of_addedNodeLoop h]
      simp [*]
    · rw [found_of_addedNodeLoop h]
      simp [*]

/-- **Not added**: `HandleGetAddedNodeInfo` replies `Node has not been added` exactly when no
persistent peer has the address. -/
theorem handleGetAddedNodeInfo_not_added (peers : Window π) :
    handleGetAddedNodeInfo addr peers (some node) = some (.error nodeNotAdded) ↔
      ∀ p ∈ peers.elems, addr p ≠ node := by
  constructor
  · intro h
    obtain ⟨⟨w, found⟩, hl, he⟩ := Option.map_eq_some'.mp h
    cases found
    · simpa using (found_of_addedNodeLoop hl).not.mp (by simp)
    · cases he
  · intro h
    simp only [handleGetAddedNodeInfo, addedNodeLoop_of_forall_ne _ h]
    rfl

/-- **A second peer at the address**: the loop re-slices the slice it already cut.  Of four
persistent peers whose second and third share the address, the fourth is reported; of the
first three alone, the second re-slice exceeds the capacity and panics.  The slices have as
much capacity as length, as `make` and `append` leave the one `PersistentPeers` builds. -/
theorem handleGetAddedNodeInfo_second_match :
    handleGetAddedNodeInfo id (Window.ofList [GoString.ofAscii "10.0.0.2:11047",
        GoString.ofAscii "10.0.0.1:11047", GoString.ofAscii "10.0.0.1:11047",
        GoString.ofAscii "10.0.0.3:11047"] []) (some (GoString.ofAscii "10.0.0.1:11047")) =
      some (.ok [GoString.ofAscii "10.0.0.3:11047"]) ∧
    handleGetAddedNodeInfo id (Window.ofList [GoString.ofAscii "10.0.0.2:11047",
        GoString.ofAscii "10.0.0.1:11047", GoString.ofAscii "10.0.0.1:11047"] [])
      (some (GoString.ofAscii "10.0.0.1:11047")) = none :=
  ⟨rfl, rfl⟩

end AddedNodes

/-! ### `searchrawtransactions`' mempool page -/

theorem uint32_toNat_ofNat (n : Nat) : (UInt32.ofNat n).toNat = n % 2 ^ 32 :=
  BitVec.toNat_ofNat _ _

theorem uint32_toNat_add (a b : UInt32) : (a + b).toNat = (a.toNat + b.toNat) % 2 ^ 32 :=
  BitVec.toNat_add _ _

theorem uint32_lt_iff {a b : UInt32} : a < b ↔ a.toNat < b.toNat := BitVec.lt_def

section Mempool

variable {τ : Type}

/-- `FetchMempoolTxnsForAddress` once `UnconfirmedTxnsForAddress` returned `mpTxns`: the page
and the number skipped; `none` is a panic. -/
def fetchMempoolTxnsForAddress (mpTxns : Window τ) (numToSkip numRequested : UInt32) :
    Option (List τ × UInt32) :=
  let numAvailable := UInt32.ofNat mpTxns.len
  if numToSkip > numAvailable then some ([], numAvailable)
  else
    let rangeEnd := numToSkip + numRequested
    let rangeEnd := if rangeEnd > numAvailable then numAvailable else rangeEnd
    (mpTxns.slice numToSkip.toNat rangeEnd.toNat).map fun page => (page.elems, numToSkip)

/-- The counts `HandleSearchRawTransactions` reads from the request: `Count`, 100 when absent
and 1 when negative, and `Skip`, 0 when absent or negative. -/
def searchRawTransactionsCounts (count skip : Option Int) : Int × Int :=
  (match count with
    | some n => if n < 0 then 1 else n
    | none => 100,
   match skip with
    | some n => if n < 0 then 0 else n
    | none => 0)

/-- The mempool page `HandleSearchRawTransactions` fetches first when `Reverse` is set (and
`Count` is not zero): `FetchMempoolTxnsForAddress` at `uint32(numToSkip)` and
`uint32(numRequested)`. -/
def reverseMempoolPage (mpTxns : Window τ) (count skip : Option Int) : Option (List τ × UInt32) :=
  let (numRequested, numToSkip) := searchRawTransactionsCounts count skip
  fetchMempoolTxnsForAddress mpTxns (UInt32.ofNat numToSkip.toNat)
    (UInt32.ofNat numRequested.toNat)

variable {mpTxns : Window τ} {numToSkip numRequested : UInt32}

/-- The page in `Nat`: the number available is the length, and the range's end is the sum of
the bounds modulo `2 ^ 32`, capped at the length. -/
theorem fetchMempoolTxnsForAddress_eq (hlen : mpTxns.len < 2 ^ 32) :
    fetchMempoolTxnsForAddress mpTxns numToSkip numRequested =
      if mpTxns.len < numToSkip.toNat then some ([], UInt32.ofNat mpTxns.len)
      else (mpTxns.slice numToSkip.toNat
          (min ((numToSkip.toNat + numRequested.toNat) % 2 ^ 32) mpTxns.len)).map
        fun page => (page.elems, numToSkip) := by
  have havail : (UInt32.ofNat mpTxns.len).toNat = mpTxns.len := by
    rw [uint32_toNat_ofNat, Nat.mod_eq_of_lt hlen]
  -- the range's end, capped at the number available
  have hend : (if numToSkip + numRequested > UInt32.ofNat mpTxns.len then UInt32.ofNat mpTxns.len
      else numToSkip + numRequested).toNat =
        min ((numToSkip.toNat + numRequested.toNat) % 2 ^ 32) mpTxns.len := by
    rw [apply_ite UInt32.toNat]
    simp only [gt_iff_lt, uint32_lt_iff, havail, uint32_toNat_add]
    split <;> omega
  unfold fetchMempoolTxnsForAddress
  dsimp only
  rw [hend]
  simp only [gt_iff_lt, uint32_lt_iff, havail]

/-- **When the page panics**: exactly when `numToSkip` is within the transactions and
`numToSkip + numRequested` overflows `uint32`, so that the range's end falls below its start. -/
theorem fetchMempoolTxnsForAddress_eq_none_iff (hlen : mpTxns.len < 2 ^ 32) :
    fetchMempoolTxnsForAddress mpTxns numToSkip numRequested = none ↔
      numToSkip.toNat ≤ mpTxns.len ∧ 2 ^ 32 ≤ numToSkip.toNat + numRequested.toNat := by
  have hr := numRequested.toNat_lt_size
  have hcap := mpTxns.len_le_cap
  rw [fetchMempoolTxnsForAddress_eq hlen]
  split
  · simp only [reduceCtorEq, false_iff, not_and, not_le]; omega
  · simp only [Option.map_eq_none', Window.slice_eq_none, UInt32.size] at hr ⊢
    omega

/-- Two transactions, skipping one and asking for `2 ^ 32 - 1`. -/
theorem fetchMempoolTxnsForAddress_eq_none_iff_two :
    (Window.ofList [0, 1] []).len < 2 ^ 32 ∧
      (fetchMempoolTxnsForAddress (Window.ofList [0, 1] []) 1 4294967295 = none ↔
        (1 : UInt32).toNat ≤ (Window.ofList [0, 1] []).len ∧
          2 ^ 32 ≤ (1 : UInt32).toNat + (4294967295 : UInt32).toNat) :=
  ⟨by decide, fetchMempoolTxnsForAddress_eq_none_iff (by decide)⟩

end Mempool

/-- **A page past `uint32`**: two transactions in the mempool, a request skipping one and
asking for `2 ^ 32 - 1`; the range's end wraps to `0` and `mpTxns[1:0]` panics.  A client
reaches it with `Count` `4294967295`, `Skip` `1` and `Reverse` set. -/
theorem fetchMempoolTxnsForAddress_wraps :
    fetchMempoolTxnsForAddress (Window.ofList [0, 1] []) 1 4294967295 = none ∧
      reverseMempoolPage (Window.ofList [0, 1] []) (some 4294967295) (some 1) = none := by
  constructor <;> decide

end Pod.Rpc
