import Pod.TxMgr.Credit

/-!
# Wallet transaction store — the keys that point at credits

An output is named in three layouts.  The canonical outpoint (`canonicalOutPoint`, 36 bytes) is
the transaction hash and the output index; it keys the unspent bucket `"u"`, whose values
(`valueUnspent`, 36 bytes) are the height and hash of the block that mined the output.  A
transaction record, in `"t"`, is keyed by the hash, the height and the block hash
(`keyTxRecord`, 68 bytes), and a credit by that key and the output index (`keyCredit`, 72
bytes).  `existsRawUnspent` builds a credit key from an outpoint and its unspent value, pasting
them at the offsets 32 and 68; `extractRawCreditTxRecordKey`, `extractRawCreditIndex` and
`fetchRawCreditUnspentValue` cut a credit key apart again at 32, 68 and 72.

A key or value read from a bucket is a slice of its own length, so a slice expression past its
end panics (`none`).

* `creditKeys_agree`: for every outpoint and every block, the layouts agree: the unspent value
  cut from a credit key is the block's, `existsRawUnspent` rebuilds exactly the credit key from
  it, the pieces of the credit key are the transaction record's key and the index, and the
  transaction record's key and the outpoint read back.
-/

namespace Pod.TxMgr

open Pod
open Pod.Node (ChainHash hashSize)

/-- `bucketTxRecords`. -/
def bucketTxRecords : GoString := GoString.ofAscii "t"

/-- `canonicalOutPoint`: the transaction hash, then the output index. -/
def canonicalOutPoint (txHash : ChainHash) (index : UInt32) : List UInt8 :=
  txHash.val ++ putUint 4 index.toNat

/-- `readCanonicalOutPoint`: the outpoint of a key of at least 36 bytes. -/
def readCanonicalOutPoint (k : List UInt8) : Except StoreError (ChainHash × UInt32) :=
  if k.length < 36 then .error ⟨.errData, GoString.ofAscii "short canonical outpoint"⟩
  else .ok (copyHash k, UInt32.ofNat (getUint (bytesAt 32 4 k)))

/-- `keyTxRecord`: the transaction hash, `uint32(block.Height)` and the block hash. -/
def keyTxRecord (txHash : ChainHash) (block : Block) : List UInt8 :=
  txHash.val ++ putUint 4 (toUnsigned 32 block.height) ++ block.hash.val

/-- `readRawTxRecordBlock`: the block of a key of at least 68 bytes, its height
`int32(Uint32(k[32:36]))` and its hash `k[36:68]`. -/
def readRawTxRecordBlock (k : List UInt8) : Except StoreError Block :=
  if k.length < 68 then .error ⟨.errData, shortKey bucketTxRecords 68 k.length⟩
  else .ok ⟨copyHash (bytesAt 36 32 k), toSigned 32 (getUint (bytesAt 32 4 k))⟩

/-- `extractRawCreditTxRecordKey`: `k[0:68]`. -/
def extractRawCreditTxRecordKey (k : List UInt8) : Option (List UInt8) :=
  GoString.sliceTo k 68

/-- `extractRawCreditIndex`: `Uint32(k[68:72])`. -/
def extractRawCreditIndex (k : List UInt8) : Option UInt32 :=
  if k.length < 72 then none else some (UInt32.ofNat (getUint (bytesAt 68 4 k)))

/-- `fetchRawCreditUnspentValue`: `k[32:68]` of a key of at least 72 bytes. -/
def fetchRawCreditUnspentValue (k : List UInt8) : Except StoreError (List UInt8) :=
  if k.length < 72 then .error ⟨.errData, shortKey bucketCredits 72 k.length⟩
  else .ok (bytesAt 32 36 k)

/-- `valueUnspent`: `uint32(block.Height)`, then the block hash. -/
def valueUnspent (block : Block) : List UInt8 :=
  putUint 4 (toUnsigned 32 block.height) ++ block.hash.val

/-- `existsRawUnspent`: for a key of at least 36 bytes whose value has at least 36, the credit
key made of `k[:32]`, the value's first 36 bytes and `k[32:36]`, the three copies that fill the
72 bytes of `make`.  `none` is the `nil` it returns otherwise; a missing value is `nil`, of
length `0`. -/
def existsRawUnspent (unspent : Bucket) (k : List UInt8) : Option (List UInt8) :=
  if k.length < 36 then none
  else
    let v := (unspent.lookup k).getD []
    if v.length < 36 then none
    else some (k.take 32 ++ v.take 36 ++ bytesAt 32 4 k)

/-! ### The layouts -/

theorem keyCredit_eq (txHash : ChainHash) (index : UInt32) (block : Block) :
    keyCredit txHash index block = keyTxRecord txHash block ++ putUint 4 index.toNat := rfl

theorem keyCredit_eq_valueUnspent (txHash : ChainHash) (index : UInt32) (block : Block) :
    keyCredit txHash index block = txHash.val ++ valueUnspent block ++ putUint 4 index.toNat := by
  simp [keyCredit, valueUnspent]

@[simp] theorem length_valueUnspent (block : Block) : (valueUnspent block).length = 36 := by
  simp only [valueUnspent, List.length_append, length_putUint, length_hash]

@[simp] theorem length_keyTxRecord (txHash : ChainHash) (block : Block) :
    (keyTxRecord txHash block).length = 68 := by
  simp only [keyTxRecord, List.length_append, length_putUint, length_hash]

@[simp] theorem length_canonicalOutPoint (txHash : ChainHash) (index : UInt32) :
    (canonicalOutPoint txHash index).length = 36 := by
  simp only [canonicalOutPoint, List.length_append, length_putUint, length_hash]

theorem copyHash_val (h : ChainHash) : copyHash h.val = h := by
  simpa using copyHash_append h []

theorem bytesAt_index (txHash : ChainHash) (index : UInt32) :
    bytesAt 32 4 (canonicalOutPoint txHash index) = putUint 4 index.toNat := by
  rw [canonicalOutPoint, ← List.append_nil (_ ++ _), bytesAt_append (length_hash txHash)
    (length_putUint 4 _)]

/-- The block of a transaction record's key reads back. -/
theorem readRawTxRecordBlock_keyTxRecord (txHash : ChainHash) {block : Block}
    (hh : InRange 32 block.height) : readRawTxRecordBlock (keyTxRecord txHash block) = .ok block := by
  have hhash : bytesAt 36 32 (keyTxRecord txHash block) = block.hash.val := by
    rw [keyTxRecord, ← List.append_nil (_ ++ block.hash.val),
      bytesAt_append (by simp only [List.length_append, length_putUint, length_hash])
        (length_hash _)]
  have hheight : bytesAt 32 4 (keyTxRecord txHash block) = putUint 4 (toUnsigned 32 block.height) :=
    bytesAt_append (length_hash txHash) (length_putUint 4 _)
  rw [readRawTxRecordBlock, if_neg (by simp), hhash, hheight, copyHash_val, getUint_putUint,
    Nat.mod_eq_of_lt (by simpa using toUnsigned_lt 32 block.height),
    toSigned_toUnsigned (by decide) hh]

/-- **The key layouts agree**: for every outpoint and every block of an `int32` height, the
unspent value `fetchRawCreditUnspentValue` cuts from the credit key is `valueUnspent`;
`existsRawUnspent`, over an unspent bucket holding it under the canonical outpoint, returns
exactly the credit key; the credit key's first 68 bytes are the transaction record's key and its
last 4 the index; that key reads back to the block, and the canonical outpoint to the hash and
the index. -/
theorem creditKeys_agree (txHash : ChainHash) (index : UInt32) (block : Block)
    (hh : InRange 32 block.height) (unspent : Bucket) :
    fetchRawCreditUnspentValue (keyCredit txHash index block) = .ok (valueUnspent block) ∧
      (unspent.lookup (canonicalOutPoint txHash index) = some (valueUnspent block) →
        existsRawUnspent unspent (canonicalOutPoint txHash index) =
          some (keyCredit txHash index block)) ∧
      extractRawCreditTxRecordKey (keyCredit txHash index block) =
        some (keyTxRecord txHash block) ∧
      extractRawCreditIndex (keyCredit txHash index block) = some index ∧
      readRawTxRecordBlock (keyTxRecord txHash block) = .ok block ∧
      readCanonicalOutPoint (canonicalOutPoint txHash index) = .ok (txHash, index) := by
  have hlen := length_keyCredit txHash index block
  refine ⟨?_, fun hv => ?_, ?_, ?_, readRawTxRecordBlock_keyTxRecord txHash hh, ?_⟩
  · rw [fetchRawCreditUnspentValue, if_neg (by omega), keyCredit_eq_valueUnspent,
      bytesAt_append (length_hash txHash) (length_valueUnspent block)]
  · rw [existsRawUnspent, if_neg (by simp), hv, Option.getD_some, if_neg (by simp),
      canonicalOutPoint, List.take_left' (length_hash txHash),
      List.take_of_length_le (by simp), ← canonicalOutPoint, bytesAt_index,
      keyCredit_eq_valueUnspent]
  · rw [extractRawCreditTxRecordKey, GoString.sliceTo, if_pos (by omega), keyCredit_eq,
      List.take_left' (length_keyTxRecord txHash block)]
  · rw [extractRawCreditIndex, if_neg (by omega), index_keyCredit]
  · rw [readCanonicalOutPoint, if_neg (by simp), bytesAt_index, uint32_getUint_putUint,
      canonicalOutPoint, copyHash_append]

/-- Block `-1`, and an unspent bucket holding output `3` of transaction `1` as mined in it. -/
def blockMinusOne : Block := ⟨Node.byteHash 2, -1⟩

/-- The unspent bucket of `blockMinusOne`'s output. -/
def unspentAtMinusOne : Bucket :=
  (∅ : Bucket).insert (canonicalOutPoint (Node.byteHash 1) 3) (valueUnspent blockMinusOne)

/-- A height that `uint32` wraps to `2 ^ 32 - 1` keeps the layouts in step. -/
theorem creditKeys_agree_minusOne :
    InRange 32 blockMinusOne.height ∧
      fetchRawCreditUnspentValue (keyCredit (Node.byteHash 1) 3 blockMinusOne) =
        .ok (valueUnspent blockMinusOne) ∧
      (unspentAtMinusOne.lookup (canonicalOutPoint (Node.byteHash 1) 3) =
          some (valueUnspent blockMinusOne) →
        existsRawUnspent unspentAtMinusOne (canonicalOutPoint (Node.byteHash 1) 3) =
          some (keyCredit (Node.byteHash 1) 3 blockMinusOne)) ∧
      extractRawCreditTxRecordKey (keyCredit (Node.byteHash 1) 3 blockMinusOne) =
        some (keyTxRecord (Node.byteHash 1) blockMinusOne) ∧
      extractRawCreditIndex (keyCredit (Node.byteHash 1) 3 blockMinusOne) = some 3 ∧
      readRawTxRecordBlock (keyTxRecord (Node.byteHash 1) blockMinusOne) = .ok blockMinusOne ∧
      readCanonicalOutPoint (canonicalOutPoint (Node.byteHash 1) 3) = .ok (Node.byteHash 1, 3) :=
  ⟨by decide, creditKeys_agree (Node.byteHash 1) 3 blockMinusOne (by decide) unspentAtMinusOne⟩

end Pod.TxMgr
