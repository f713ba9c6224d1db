import Pod.Gbt.WorkState
import Pod.Support.Encoding

/-!
# GBT — the template result: its long-poll ID and its transactions

`BlockTemplateResult` names the template by a long-poll ID, `EncodeTemplateID` of the previous
hash and the generation time, which `HandleGetBlockTemplateLongPoll` reads back with
`DecodeTemplateID`; and it lists the template's transactions after the coinbase, each with the
positions of the transactions before it that it spends (`Depends`).

* `decodeTemplateID_encodeTemplateID`: the ID of a template generated from 1970 on decodes to
  its previous hash and second.
* `longPollID_before_epoch_unrecognised`: the ID of a template generated before 1970 holds a
  second `-`, `DecodeTemplateID` rejects it, and the long poll replies at once.
* `blockTemplateResult_depends_exact`: when the transactions' hashes are distinct and none spends
  its own output, the `Depends` of the transaction at position `k` lists, once each, exactly the
  positions before `k` of the transactions it spends.
-/

namespace Pod.Gbt

open Pod

/-! ### The long-poll ID -/

/-- What the long-poll ID needs of `chainhash` (not in this repository): `Hash.String()` writes
no `-`, and `NewHashFromStr` reads it back. -/
structure HashText where
  toText : Hash → GoString
  ofText : GoString → Option Hash
  dash_not_mem : ∀ h, (45 : UInt8) ∉ toText h
  ofText_toText : ∀ h, ofText (toText h) = some h

/-- The message of each of `DecodeTemplateID`'s errors. -/
def invalidLongPollID : GoString := GoString.ofAscii "invalid longpollid format"

/-- `EncodeTemplateID`: `fmt.Sprintf("%s-%d", prevHash.String(), lastGenerated.Unix())`. -/
def encodeTemplateID (ht : HashText) (prevHash : Hash) (lastGenerated : Time) : GoString :=
  ht.toText prevHash ++ GoString.ofAscii "-" ++ formatInt (Time.unix lastGenerated)

/-- `DecodeTemplateID`: the ID split on every `-` must have two fields, a hash and an
`int64`. -/
def decodeTemplateID (ht : HashText) (templateID : GoString) : Except GoString (Hash × Int) :=
  match GoString.split (GoString.ofAscii "-") templateID with
  | [field₀, field₁] =>
    match ht.ofText field₀, parseInt field₁ with
    | some prevHash, some lastGenerated => .ok (prevHash, lastGenerated)
    | _, _ => .error invalidLongPollID
  | _ => .error invalidLongPollID

theorem encodeTemplateID_eq (ht : HashText) (prevHash : Hash) (lastGenerated : Time) :
    encodeTemplateID ht prevHash lastGenerated =
      ht.toText prevHash ++ 45 :: formatInt (Time.unix lastGenerated) := by
  rw [encodeTemplateID, show GoString.ofAscii "-" = [45] from rfl, List.append_assoc]
  rfl

theorem dash_not_mem_formatNat (n : Nat) : (45 : UInt8) ∉ formatNat n := fun h =>
  absurd (mem_formatNat h) (by decide)

/-- Decimal digits as a hash's text: the two properties can hold. -/
def decimalHashText : HashText :=
  ⟨formatNat, parseNat, dash_not_mem_formatNat, parseNat_formatNat⟩

/-- **The ID of a template from 1970 on**: it decodes to the previous hash and the second the
template was generated in. -/
theorem decodeTemplateID_encodeTemplateID (ht : HashText) (prevHash : Hash) {t : Time}
    (h₀ : 0 ≤ Time.unix t) (h : Time.unix t < 2 ^ 63) :
    decodeTemplateID ht (encodeTemplateID ht prevHash t) = .ok (prevHash, Time.unix t) := by
  have hf : formatInt (Time.unix t) = formatNat (Time.unix t).toNat := if_neg (by omega)
  rw [decodeTemplateID, encodeTemplateID_eq, show GoString.ofAscii "-" = [45] from rfl,
    GoString.split_single_append (ht.dash_not_mem _), hf,
    GoString.split_single_of_not_mem (dash_not_mem_formatNat _)]
  dsimp only
  rw [ht.ofText_toText, ← hf, parseInt_formatInt h₀ h]

/-- A template generated at second `100`. -/
theorem decodeTemplateID_encodeTemplateID_at100 :
    0 ≤ Time.unix (100 * Time.second) ∧ Time.unix (100 * Time.second) < 2 ^ 63 ∧
      decodeTemplateID decimalHashText (encodeTemplateID decimalHashText 7 (100 * Time.second)) =
        .ok (7, Time.unix (100 * Time.second)) :=
  ⟨by decide, by decide, decodeTemplateID_encodeTemplateID decimalHashText 7 (by decide) (by decide)⟩

/-- `DecodeTemplateID` rejects the ID of a template generated before 1970: `%d` writes the
negative second with a `-`, and the split finds three fields. -/
theorem decodeTemplateID_rejects_before_epoch (ht : HashText) (prevHash : Hash) {t : Time}
    (h : Time.unix t < 0) :
    decodeTemplateID ht (encodeTemplateID ht prevHash t) = .error invalidLongPollID := by
  have hf : formatInt (Time.unix t) = 45 :: formatNat (Time.unix t).natAbs := if_pos h
  have hlead := GoString.split_single_append (c := 45) (a := [])
    (b := formatNat (Time.unix t).natAbs) (List.not_mem_nil _)
  rw [List.nil_append] at hlead
  rw [decodeTemplateID, encodeTemplateID_eq, hf, show GoString.ofAscii "-" = [45] from rfl,
    GoString.split_single_append (ht.dash_not_mem _), hlead,
    GoString.split_single_of_not_mem (dash_not_mem_formatNat _)]

/-- A long poll whose ID does not decode registers nothing: its locked section is
`UpdateBlockTemplate` alone, and the handler replies at once. -/
theorem handleGetBlockTemplateLongPoll_none (merkleRoot : List MsgTx → Hash) (env : Env)
    (addrs : List Address) (useCoinbaseValue : Bool) (w : Work) :
    handleGetBlockTemplateLongPoll merkleRoot env addrs useCoinbaseValue none w =
      (updateBlockTemplate merkleRoot env addrs useCoinbaseValue w).map Prod.fst := by
  unfold handleGetBlockTemplateLongPoll
  cases updateBlockTemplate merkleRoot env addrs useCoinbaseValue w with
  | none => rfl
  | some r => obtain ⟨g, _ | _⟩ := r <;> rfl

/-- **The ID of a template from before 1970 is not recognised**: `DecodeTemplateID` rejects it,
and the long poll that hands it back replies at once with the current template, registering
nothing, whatever state it runs in. -/
theorem longPollID_before_epoch_unrecognised (ht : HashText) (prevHash : Hash) {t : Time}
    (h : Time.unix t < 0) :
    decodeTemplateID ht (encodeTemplateID ht prevHash t) = .error invalidLongPollID ∧
      ∀ merkleRoot env addrs useCoinbaseValue w,
        handleGetBlockTemplateLongPoll merkleRoot env addrs useCoinbaseValue
            (decodeTemplateID ht (encodeTemplateID ht prevHash t)).toOption w =
          (updateBlockTemplate merkleRoot env addrs useCoinbaseValue w).map Prod.fst := by
  have hd := decodeTemplateID_rejects_before_epoch ht prevHash h
  exact ⟨hd, fun merkleRoot env addrs useCoinbaseValue w => by
    rw [hd]; exact handleGetBlockTemplateLongPoll_none merkleRoot env addrs useCoinbaseValue w⟩

/-- A template generated one second before 1970. -/
theorem longPollID_unrecognised_one_second_before :
    Time.unix (-Time.second) < 0 ∧
      decodeTemplateID decimalHashText (encodeTemplateID decimalHashText 7 (-Time.second)) =
        .error invalidLongPollID :=
  ⟨by decide, (longPollID_before_epoch_unrecognised decimalHashText 7 (by decide)).1⟩

/-! ### The transactions and their dependencies -/

/-- What `BlockTemplateResult` reads of a template transaction for its entry: its hash, and the
hash each input's previous outpoint names. -/
structure TemplateTx where
  hash : Hash
  prevHashes : List Hash
  deriving DecidableEq, Repr

/-- The fields of a `GetBlockTemplateResultTx` this model keeps: the hash, the `Depends`, the
fee and the signature operations. -/
structure ResultTx where
  hash : Hash
  depends : List Int
  fee : Int
  sigOps : Int
  deriving DecidableEq, Repr

/-- `dependsMap`: the index in `txIndex` of each input's previous hash that it holds. -/
def dependsMap (txIndex : GoMap Hash Int) (tx : TemplateTx) : GoMap Int Unit :=
  tx.prevHashes.foldl (fun m h =>
    match txIndex.lookup h with
    | some idx => m.insert idx ()
    | none => m) ∅

/-- The loop of `BlockTemplateResult` over the block's transactions from index `i`: each one's
hash goes into `txIndex` before its inputs are read, the coinbase gets no entry, and the others
read their fee and signature operations, where an index out of range panics.  `Depends` is the
keys of `dependsMap`, in the order the `range` visits them. -/
def blockTemplateResultTxs (fees sigOpCosts : List Int) :
    Nat → GoMap Hash Int → List TemplateTx → Option (List ResultTx)
  | _, _, [] => some []
  | i, txIndex, tx :: rest =>
    let txIndex := txIndex.insert tx.hash i
    if i = 0 then blockTemplateResultTxs fees sigOpCosts (i + 1) txIndex rest
    else
      match fees[i]?, sigOpCosts[i]? with
      | some fee, some sigOps =>
        (blockTemplateResultTxs fees sigOpCosts (i + 1) txIndex rest).map
          (⟨tx.hash, (dependsMap txIndex tx).keys, fee, sigOps⟩ :: ·)
      | _, _ => none

theorem mem_foldl_dependsMap {txIndex : GoMap Hash Int} {idx : Int} :
    ∀ (hs : List Hash) (m : GoMap Int Unit),
      idx ∈ hs.foldl (fun m h =>
          match txIndex.lookup h with
          | some idx => m.insert idx ()
          | none => m) m ↔
        idx ∈ m ∨ ∃ h ∈ hs, txIndex.lookup h = some idx
  | [], m => by simp
  | h :: hs, m => by
    rw [List.foldl_cons, mem_foldl_dependsMap hs]
    cases hl : txIndex.lookup h with
    | none =>
      simp only [List.mem_cons, exists_eq_or_imp, hl, reduceCtorEq, false_or]
    | some j =>
      simp only [AList.mem_insert, List.mem_cons, exists_eq_or_imp, hl, Option.some.injEq]
      rw [@eq_comm _ j, or_assoc, or_left_comm]

theorem mem_dependsMap {txIndex : GoMap Hash Int} {tx : TemplateTx} {idx : Int} :
    idx ∈ dependsMap txIndex tx ↔ ∃ h ∈ tx.prevHashes, txIndex.lookup h = some idx := by
  rw [dependsMap, mem_foldl_dependsMap]
  simp [AList.not_mem_empty]

section Depends

variable {txs : List TemplateTx}

/-- `txIndex` holds the hashes of the transactions before `i`, each at its index. -/
def IndexInv (txs : List TemplateTx) (i : Nat) (txIndex : GoMap Hash Int) : Prop :=
  ∀ h idx, txIndex.lookup h = some idx ↔ ∃ n : Nat, idx = n ∧ n < i ∧ (txs[n]?).map (·.hash) = some h

theorem IndexInv.insert (hd : (txs.map (·.hash)).Nodup) {i : Nat} {txIndex : GoMap Hash Int}
    (h : IndexInv txs i txIndex) {tx : TemplateTx} (hi : txs[i]? = some tx) :
    IndexInv txs (i + 1) (txIndex.insert tx.hash i) := by
  intro k idx
  by_cases hk : k = tx.hash
  · subst hk
    rw [AList.lookup_insert, Option.some.injEq]
    constructor
    · rintro rfl; exact ⟨i, rfl, by omega, by simp [hi]⟩
    · rintro ⟨n, rfl, -, hnk⟩
      -- the hashes are distinct, so only `i` has `tx`'s
      have hlt : i < txs.length := (List.getElem?_eq_some_iff.mp hi).1
      exact congrArg _ (List.getElem?_inj (i := i) (j := n) (by simpa using hlt) hd
        (by rw [List.getElem?_map, List.getElem?_map, hi, hnk]; rfl))
  · rw [AList.lookup_insert_ne hk, h]
    constructor
    · rintro ⟨n, rfl, hn, hnk⟩; exact ⟨n, rfl, by omega, hnk⟩
    · rintro ⟨n, rfl, hn, hnk⟩
      refine ⟨n, rfl, ?_, hnk⟩
      rcases Nat.lt_succ_iff_lt_or_eq.mp hn with hn | rfl
      · exact hn
      · simp [hi] at hnk; exact absurd hnk.symm hk

/-- The loop from index `i ≥ 1` on: it does not panic, and the entry of each transaction lists
its dependencies once each. -/
theorem blockTemplateResultTxs_spec (hd : (txs.map (·.hash)).Nodup)
    (hself : ∀ tx ∈ txs, tx.hash ∉ tx.prevHashes) {fees sigOpCosts : List Int}
    (hfee : txs.length ≤ fees.length) (hsig : txs.length ≤ sigOpCosts.length) :
    ∀ (rest : List TemplateTx) (i : Nat) (txIndex : GoMap Hash Int), 0 < i → txs.drop i = rest →
      IndexInv txs i txIndex →
      ∃ rs, blockTemplateResultTxs fees sigOpCosts i txIndex rest = some rs ∧
        ∀ k, i ≤ k → ∀ tx, txs[k]? = some tx → ∃ r, rs[k - i]? = some r ∧ r.hash = tx.hash ∧
          r.depends.Nodup ∧ ∀ j : Int, j ∈ r.depends ↔
            ∃ n : Nat, j = n ∧ n < k ∧ ∃ t, txs[n]? = some t ∧ t.hash ∈ tx.prevHashes := by
  intro rest
  induction rest with
  | nil =>
    intro i _ _ hrest _
    refine ⟨[], rfl, fun k hk tx htx => ?_⟩
    have : txs.length ≤ i := List.drop_eq_nil_iff.mp hrest
    have := (List.getElem?_eq_some_iff.mp htx).1
    omega
  | cons tx rest ih =>
    intro i txIndex hi hrest hinv
    have htx : txs[i]? = some tx := by
      rw [← List.head?_drop, hrest]; rfl
    have hlt : i < txs.length := (List.getElem?_eq_some_iff.mp htx).1
    have hf : fees[i]? = some fees[i] := List.getElem?_eq_getElem (by omega)
    have hs : sigOpCosts[i]? = some sigOpCosts[i] := List.getElem?_eq_getElem (by omega)
    have hinv' := hinv.insert hd htx
    obtain ⟨rs, hrs, hspec⟩ := ih (i + 1) _ (by omega) (by rw [← List.drop_drop, hrest]; rfl) hinv'
    refine ⟨⟨tx.hash, (dependsMap (txIndex.insert tx.hash i) tx).keys, fees[i], sigOpCosts[i]⟩ :: rs,
      by simp [blockTemplateResultTxs, Nat.pos_iff_ne_zero.mp hi, hf, hs, hrs],
      fun k hk t ht => ?_⟩
    rcases Nat.lt_or_eq_of_le hk with hk | rfl
    · obtain ⟨r, hr, hrest'⟩ := hspec k hk t ht
      exact ⟨r, by rw [show k - i = k - (i + 1) + 1 by omega, List.getElem?_cons_succ]; exact hr, hrest'⟩
    · rw [htx, Option.some.injEq] at ht
      subst ht
      refine ⟨_, by rw [Nat.sub_self, List.getElem?_cons_zero], rfl, AList.keys_nodup _, fun j => ?_⟩
      rw [← AList.mem_keys, mem_dependsMap]
      constructor
      · rintro ⟨h, hh, hj⟩
        obtain ⟨n, rfl, hn, hnh⟩ := (hinv' h j).mp hj
        obtain ⟨t', ht', rfl⟩ := Option.map_eq_some'.mp hnh
        refine ⟨n, rfl, ?_, t', ht', hh⟩
        -- the transaction does not spend its own output
        rcases Nat.lt_succ_iff_lt_or_eq.mp hn with hn | rfl
        · exact hn
        · rw [htx, Option.some.injEq] at ht'
          subst ht'
          exact absurd hh (hself _ (List.getElem?_mem htx))
      · rintro ⟨n, rfl, hn, t', ht', hh⟩
        exact ⟨t'.hash, hh, (hinv' _ _).mpr ⟨n, rfl, by omega, by simp [ht']⟩⟩

/-- **Each transaction's `Depends`**: for a template whose transactions have distinct hashes and
none of which spends its own output, `BlockTemplateResult`'s loop does not panic when every
transaction has a fee and a signature count, and the entry of the transaction at position
`k ≥ 1` (its 1-based position in the result) lists, once each, exactly the positions `n < k`
of the transactions whose hash one of its inputs spends from.  Both properties hold in every
order of the `range` over `dependsMap`. -/
theorem blockTemplateResult_depends_exact (hd : (txs.map (·.hash)).Nodup)
    (hself : ∀ tx ∈ txs, tx.hash ∉ tx.prevHashes) {fees sigOpCosts : List Int}
    (hfee : txs.length ≤ fees.length) (hsig : txs.length ≤ sigOpCosts.length) :
    ∃ rs, blockTemplateResultTxs fees sigOpCosts 0 ∅ txs = some rs ∧
      ∀ k, 0 < k → ∀ tx, txs[k]? = some tx → ∃ r, rs[k - 1]? = some r ∧ r.hash = tx.hash ∧
        r.depends.Nodup ∧ ∀ j : Int, j ∈ r.depends ↔
          ∃ n : Nat, j = n ∧ n < k ∧ ∃ t, txs[n]? = some t ∧ t.hash ∈ tx.prevHashes := by
  cases htxs : txs with
  | nil => exact ⟨[], rfl, fun k _ tx htx => by simp at htx⟩
  | cons cb rest =>
    subst htxs
    -- the coinbase only enters `txIndex`
    have hinv : IndexInv (cb :: rest) 1 ((∅ : GoMap Hash Int).insert cb.hash 0) :=
      IndexInv.insert hd (i := 0) (fun h idx => by simp) List.getElem?_cons_zero
    obtain ⟨rs, hrs, hspec⟩ :=
      blockTemplateResultTxs_spec hd hself hfee hsig rest 1 _ (by decide) rfl hinv
    exact ⟨rs, by rw [blockTemplateResultTxs, if_pos rfl]; exact hrs, hspec⟩

end Depends

/-- A coinbase, a transaction spending an outside output, and one spending the first twice. -/
def threeTxs : List TemplateTx := [⟨10, []⟩, ⟨11, [5]⟩, ⟨12, [11, 11, 3]⟩]

/-- The last transaction depends on position `1` alone. -/
theorem blockTemplateResult_depends_threeTxs :
    ∃ rs, blockTemplateResultTxs [0, 1, 2] [0, 1, 1] 0 ∅ threeTxs = some rs ∧
      ∀ k, 0 < k → ∀ tx, threeTxs[k]? = some tx → ∃ r, rs[k - 1]? = some r ∧ r.hash = tx.hash ∧
        r.depends.Nodup ∧ ∀ j : Int, j ∈ r.depends ↔
          ∃ n : Nat, j = n ∧ n < k ∧ ∃ t, threeTxs[n]? = some t ∧ t.hash ∈ tx.prevHashes :=
  blockTemplateResult_depends_exact (by decide) (by decide) (by decide) (by decide)

end Pod.Gbt
