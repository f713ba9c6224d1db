import Pod.TxMgr.Unspent

/-!
# Wallet transaction store — unmined inputs

The bucket `"mi"` lists, under an outpoint, the unmined transactions that spend it: the value is
their hashes end to end, and `putRawUnminedInput` appends one.  `fetchUnminedInputSpendTxHashes`
reads the value back 32 bytes at a time, with no check of its length.

* `fetchUnminedInputSpendTxHashes_putRawUnminedInput`: from an absent key, the spenders put one
  after another are read back, in order.
* `fetchUnminedInputSpendTxHashes_eq_none_iff`: the reader panics exactly when the value's length
  is not a multiple of 32.
* `malformedValues_panic`: a stored value of the wrong length crashes this reader and
  `unspendRawCredit`.
-/

namespace Pod.TxMgr

open Pod
open Pod.Node (ChainHash)

/-- `putRawUnminedInput`: `v` appended to the value under `k`, a missing one being empty. -/
def putRawUnminedInput (unminedInputs : Bucket) (k v : List UInt8) : Bucket :=
  unminedInputs.insert k ((unminedInputs.lookup k).getD [] ++ v)

/-- The loop of `fetchUnminedInputSpendTxHashes`: while bytes are left, the first 32 are copied
into a hash that is appended, and the loop moves past them.  With fewer than 32 left,
`rawSpendTxHashes[32:]` reaches past the length and panics (`none`). -/
def spendTxHashesLoop (spendTxHashes : List ChainHash) (rawSpendTxHashes : List UInt8) :
    Option (List ChainHash) :=
  if rawSpendTxHashes.length = 0 then some spendTxHashes
  else if rawSpendTxHashes.length < 32 then none
  else
    spendTxHashesLoop (spendTxHashes ++ [copyHash (rawSpendTxHashes.take 32)])
      (rawSpendTxHashes.drop 32)
termination_by rawSpendTxHashes.length
decreasing_by simp only [List.length_drop]; omega

/-- `fetchUnminedInputSpendTxHashes`: `nil` for a missing key, otherwise the loop. -/
def fetchUnminedInputSpendTxHashes (unminedInputs : Bucket) (k : List UInt8) :
    Option (List ChainHash) :=
  match unminedInputs.lookup k with
  | none => some []
  | some rawSpendTxHashes => spendTxHashesLoop [] rawSpendTxHashes

/-! ### The loop -/

theorem spendTxHashesLoop_nil (spendTxHashes : List ChainHash) :
    spendTxHashesLoop spendTxHashes [] = some spendTxHashes := by
  rw [spendTxHashesLoop, if_pos List.length_nil]

theorem spendTxHashesLoop_append (spendTxHashes : List ChainHash) (h : ChainHash)
    (rest : List UInt8) :
    spendTxHashesLoop spendTxHashes (h.val ++ rest) = spendTxHashesLoop (spendTxHashes ++ [h]) rest := by
  have hlen : (h.val ++ rest).length = 32 + rest.length := by rw [List.length_append, length_hash]
  rw [spendTxHashesLoop, if_neg (by omega), if_neg (by omega),
    List.take_left' (length_hash h), List.drop_left' (length_hash h), copyHash_val]

/-- The loop reads hashes laid end to end back in order. -/
theorem spendTxHashesLoop_flatten (spendTxHashes hs : List ChainHash) :
    spendTxHashesLoop spendTxHashes (hs.map Subtype.val).flatten = some (spendTxHashes ++ hs) := by
  induction hs generalizing spendTxHashes with
  | nil => rw [List.map_nil, List.flatten_nil, spendTxHashesLoop_nil, List.append_nil]
  | cons h hs ih =>
    rw [List.map_cons, List.flatten_cons, spendTxHashesLoop_append, ih, List.append_assoc,
      List.singleton_append]

/-- The loop panics exactly when the bytes are not a whole number of hashes. -/
theorem spendTxHashesLoop_eq_none_iff (spendTxHashes : List ChainHash) (raw : List UInt8) :
    spendTxHashesLoop spendTxHashes raw = none ↔ raw.length % 32 ≠ 0 := by
  induction spendTxHashes, raw using spendTxHashesLoop.induct with
  | case1 _ raw h => rw [spendTxHashesLoop, if_pos h, h]; simp
  | case2 _ raw h₁ h₂ => rw [spendTxHashesLoop, if_neg h₁, if_pos h₂]; simp; omega
  | case3 _ raw h₁ h₂ ih =>
    rw [spendTxHashesLoop, if_neg h₁, if_neg h₂, ih, List.length_drop]
    omega

/-! ### The bucket -/

/-- The value after puts on one key: the first put appends to what was there. -/
theorem lookup_foldl_putRawUnminedInput (k : List UInt8) :
    ∀ (vs : List ChainHash) (unminedInputs : Bucket), vs ≠ [] →
      (vs.foldl (fun b v => putRawUnminedInput b k v.val) unminedInputs).lookup k =
        some ((unminedInputs.lookup k).getD [] ++ (vs.map Subtype.val).flatten)
  | [], _, h => absurd rfl h
  | [v], unminedInputs, _ => by
    simp [putRawUnminedInput, AList.lookup_insert]
  | v :: w :: vs, unminedInputs, _ => by
    rw [List.foldl_cons, lookup_foldl_putRawUnminedInput k (w :: vs) _ (List.cons_ne_nil _ _),
      putRawUnminedInput, AList.lookup_insert, Option.getD_some]
    simp only [List.map_cons, List.flatten_cons, List.append_assoc]

/-- **Spenders read back in order**: put one after another on a key absent before, the hashes
`vs` are read back by `fetchUnminedInputSpendTxHashes` as `vs`; the loop ends, with no panic. -/
theorem fetchUnminedInputSpendTxHashes_putRawUnminedInput {unminedInputs : Bucket}
    {k : List UInt8} (hk : unminedInputs.lookup k = none) (vs : List ChainHash) :
    fetchUnminedInputSpendTxHashes
        (vs.foldl (fun b v => putRawUnminedInput b k v.val) unminedInputs) k = some vs := by
  cases vs with
  | nil => rw [List.foldl_nil, fetchUnminedInputSpendTxHashes, hk]
  | cons v vs =>
    rw [fetchUnminedInputSpendTxHashes,
      lookup_foldl_putRawUnminedInput k (v :: vs) _ (List.cons_ne_nil _ _), hk, Option.getD_none,
      List.nil_append]
    exact spendTxHashesLoop_flatten [] (v :: vs)

/-- Two spenders of output `0` of transaction `1`. -/
theorem fetchUnminedInputSpendTxHashes_twoSpenders :
    (∅ : Bucket).lookup (canonicalOutPoint (Node.byteHash 1) 0) = none ∧
      fetchUnminedInputSpendTxHashes
          ([Node.byteHash 5, Node.byteHash 6].foldl
            (fun b v => putRawUnminedInput b (canonicalOutPoint (Node.byteHash 1) 0) v.val) ∅)
          (canonicalOutPoint (Node.byteHash 1) 0) =
        some [Node.byteHash 5, Node.byteHash 6] :=
  ⟨rfl, @fetchUnminedInputSpendTxHashes_putRawUnminedInput ∅ _ rfl _⟩

/-- **When the reader panics**: exactly when the value under the key has a length that is not a
multiple of 32. -/
theorem fetchUnminedInputSpendTxHashes_eq_none_iff (unminedInputs : Bucket) (k : List UInt8) :
    fetchUnminedInputSpendTxHashes unminedInputs k = none ↔
      ∃ raw, unminedInputs.lookup k = some raw ∧ raw.length % 32 ≠ 0 := by
  rw [fetchUnminedInputSpendTxHashes]
  cases unminedInputs.lookup k with
  | none => simp
  | some raw => simp [spendTxHashesLoop_eq_none_iff]

/-- **Malformed values crash both readers**: under an outpoint, a hash and one stray byte make
`fetchUnminedInputSpendTxHashes` slice `[:32]` of the single byte left, and a credit of seven
bytes makes `unspendRawCredit` slice `v[0:8]`. -/
theorem malformedValues_panic :
    fetchUnminedInputSpendTxHashes
        ((∅ : Bucket).insert (canonicalOutPoint (Node.byteHash 1) 0) ((Node.byteHash 5).val ++ [0]))
        (canonicalOutPoint (Node.byteHash 1) 0) = none ∧
      unspendRawCredit
        ((∅ : Bucket).insert (keyCredit (Node.byteHash 1) 0 ⟨Node.byteHash 2, 7⟩) (List.replicate 7 0))
        (keyCredit (Node.byteHash 1) 0 ⟨Node.byteHash 2, 7⟩) = none := by
  constructor
  · simp only [fetchUnminedInputSpendTxHashes, AList.lookup_insert]
    rw [spendTxHashesLoop_append, spendTxHashesLoop_eq_none_iff]
    decide
  · simp only [unspendRawCredit, AList.lookup_insert]
    exact if_pos (by decide)

end Pod.TxMgr
