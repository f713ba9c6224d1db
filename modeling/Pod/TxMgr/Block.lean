import Pod.Node.CfCheckpt
import Pod.Support.Encoding

/-!
# Wallet transaction store — block records

`wtxmgr` keeps its records in `walletdb` buckets as byte strings, with every integer in
`binary.BigEndian` (`byteOrder`).  A block record, in the bucket `"b"`, is keyed by the block's
height as a `uint32` and holds the block's hash, its time in Unix seconds as a `uint64`, a
`uint32` count and the hashes of that many transactions (`blockRecordValue`):
`valueBlockRecord` writes it with one transaction, `appendRawBlockRecord` adds one, and
`readRawBlockRecord` decodes it.  A decoder's failure is a `storeError` of code `ErrData`
whose description names the bucket and the lengths.

* `foldlM_appendRawBlockRecord`: appends keep a record well formed, its count the number of
  its hashes.
* `blockRecord_roundTrip`: a record built from one transaction and appends decodes to the
  block's height, its hash, its time to the second and the transactions in order.
* `keyBlockRecord_lex_of_lt`: the keys of non-negative heights sort in height order.
-/

namespace Pod.TxMgr

open Pod
open Pod.Node (ChainHash hashSize)

/-! ### Store errors -/

/-- The code of the store's errors that these functions raise: `ErrData`.  `ErrDatabase` comes
only from a failed `Put`, which this model does not have. -/
inductive ErrorCode where
  | errData
  deriving DecidableEq, Repr

/-- `storeError(code, desc, nil)`. -/
structure StoreError where
  code : ErrorCode
  desc : GoString
  deriving DecidableEq, Repr

/-- `bucketBlocks`. -/
def bucketBlocks : GoString := GoString.ofAscii "b"

/-- `fmt.Sprintf("%s: short <what> (expected %d bytes, read %d)", bucket, expected, read)`. -/
def shortMessage (what : String) (bucket : GoString) (expected read : Nat) : GoString :=
  bucket ++ GoString.ofAscii (": short " ++ what ++ " (expected ") ++ formatNat expected ++
    GoString.ofAscii " bytes, read " ++ formatNat read ++ GoString.ofAscii ")"

/-- The description of a short value. -/
def shortRead : GoString → Nat → Nat → GoString := shortMessage "read"

/-- The description of a short key. -/
def shortKey : GoString → Nat → Nat → GoString := shortMessage "key"

/-! ### Block records -/

/-- A `Block`: its hash and height (an `int32`). -/
structure Block where
  hash : ChainHash
  height : Int
  deriving DecidableEq

/-- A `BlockMeta`: a block and its time. -/
structure BlockMeta where
  block : Block
  time : Time

/-- A `blockRecord`: a block, its time and the hashes of its transactions. -/
structure BlockRecord where
  block : Block
  time : Time
  transactions : List ChainHash
  deriving DecidableEq

/-- `copy(h[:], v)` into a zero hash. -/
def copyHash (v : List UInt8) : ChainHash := ⟨makeCopy hashSize v, length_makeCopy _ _⟩

/-- `keyBlockRecord`: the height as a `uint32`. -/
def keyBlockRecord (height : Int) : List UInt8 := putUint 4 (toUnsigned 32 height)

/-- `valueBlockRecord`: the block's hash, `uint64(block.Time.Unix())`, the count `1` and the
transaction's hash. -/
def valueBlockRecord (block : BlockMeta) (txHash : ChainHash) : List UInt8 :=
  block.block.hash.val ++ putUint 8 (toUnsigned 64 (Time.unix block.time)) ++ putUint 4 1 ++
    txHash.val

/-- `appendRawBlockRecord`: the hash appended, in a new array, and the count at `[40:44]`
raised by one as a `uint32`. -/
def appendRawBlockRecord (v : List UInt8) (txHash : ChainHash) : Except StoreError (List UInt8) :=
  if v.length < 44 then .error ⟨.errData, shortRead bucketBlocks 44 v.length⟩
  else
    let newV := v ++ txHash.val
    let n := getUint (bytesAt 40 4 newV)
    .ok (writeAt 40 (putUint 4 (n + 1)) newV)

/-- The loop of `readRawBlockRecord` over the transactions: each hash copied from `v[off:]`,
`off` advancing by `HashSize`. -/
def readHashes : Nat → List UInt8 → List ChainHash
  | 0, _ => []
  | n + 1, v => copyHash v :: readHashes n (v.drop hashSize)

/-- `readRawBlockRecord`: the key at least 4 bytes, the value at least 44 and then long enough
for its count of hashes; the height is `int32(Uint32(k))` and the time
`time.Unix(int64(Uint64(v[32:40])), 0)`. -/
def readRawBlockRecord (k v : List UInt8) : Except StoreError BlockRecord :=
  if k.length < 4 then .error ⟨.errData, shortKey bucketBlocks 4 k.length⟩
  else if v.length < 44 then .error ⟨.errData, shortRead bucketBlocks 44 v.length⟩
  else
    let numTransactions := getUint (bytesAt 40 4 v)
    let expectedLen := 44 + hashSize * numTransactions
    if v.length < expectedLen then .error ⟨.errData, shortRead bucketBlocks expectedLen v.length⟩
    else
      .ok ⟨⟨copyHash v, toSigned 32 (getUint (k.take 4))⟩,
        toSigned 64 (getUint (bytesAt 32 8 v)) * Time.second,
        readHashes numTransactions (v.drop 44)⟩

/-! ### The layout -/

/-- A block record's value: a hash, the time's eight bytes, a count and the transactions'
hashes. -/
def blockRecordValue (hash : ChainHash) (time : List UInt8) (n : Nat) (txs : List ChainHash) :
    List UInt8 :=
  hash.val ++ time ++ putUint 4 n ++ (txs.map Subtype.val).flatten

theorem length_hash (h : ChainHash) : h.val.length = 32 := h.property

theorem length_flatten_hashes (txs : List ChainHash) :
    ((txs.map Subtype.val).flatten).length = 32 * txs.length := by
  induction txs with
  | nil => rfl
  | cons x txs ih =>
    rw [List.map_cons, List.flatten_cons, List.length_append, ih, length_hash, List.length_cons]
    omega

@[simp] theorem length_blockRecordValue (hash : ChainHash) (time : List UInt8) (n : Nat)
    (txs : List ChainHash) :
    (blockRecordValue hash time n txs).length = 36 + time.length + 32 * txs.length := by
  simp only [blockRecordValue, List.length_append, length_hash, length_putUint,
    length_flatten_hashes]
  omega

theorem copyHash_append (h : ChainHash) (rest : List UInt8) : copyHash (h.val ++ rest) = h :=
  Subtype.ext (show makeCopy hashSize (h.val ++ rest) = h.val by
    rw [makeCopy_of_le (by simp [length_hash, hashSize]), List.take_left' h.property])

theorem readHashes_flatten (txs : List ChainHash) :
    readHashes txs.length ((txs.map Subtype.val).flatten) = txs := by
  induction txs with
  | nil => rfl
  | cons x txs ih =>
    rw [List.length_cons, readHashes, List.map_cons, List.flatten_cons, copyHash_append,
      List.drop_left' x.property, ih]

theorem valueBlockRecord_eq (block : BlockMeta) (txHash : ChainHash) :
    valueBlockRecord block txHash = blockRecordValue block.block.hash
      (putUint 8 (toUnsigned 64 (Time.unix block.time))) 1 [txHash] := by
  simp [valueBlockRecord, blockRecordValue]

/-- One append: the hash joins the others and the count goes up by one. -/
theorem appendRawBlockRecord_blockRecordValue {hash : ChainHash} {time : List UInt8}
    (ht : time.length = 8) {n : Nat} (hn : n < 2 ^ 32) (txs : List ChainHash) (x : ChainHash) :
    appendRawBlockRecord (blockRecordValue hash time n txs) x =
      .ok (blockRecordValue hash time (n + 1) (txs ++ [x])) := by
  have hpre : (hash.val ++ time).length = 40 := by rw [List.length_append, length_hash, ht]
  have hv : blockRecordValue hash time n txs ++ x.val =
      hash.val ++ time ++ putUint 4 n ++ ((txs.map Subtype.val).flatten ++ x.val) :=
    List.append_assoc _ _ _
  rw [appendRawBlockRecord, if_neg (by rw [length_blockRecordValue]; omega)]
  dsimp only
  rw [hv, bytesAt_append hpre (length_putUint 4 n), getUint_putUint,
    Nat.mod_eq_of_lt (by simpa using hn), writeAt_append hpre (by simp), blockRecordValue,
    List.map_append, List.flatten_append, List.map_singleton, List.flatten_singleton]

/-- **Appends keep a record well formed**: each succeeds, and the count stays the number of
hashes. -/
theorem foldlM_appendRawBlockRecord {hash : ChainHash} {time : List UInt8} (ht : time.length = 8) :
    ∀ (xs : List ChainHash) (n : Nat) (txs : List ChainHash), n + xs.length < 2 ^ 32 →
      xs.foldlM appendRawBlockRecord (blockRecordValue hash time n txs) =
        .ok (blockRecordValue hash time (n + xs.length) (txs ++ xs))
  | [], n, txs, _ => by simp; rfl
  | x :: xs, n, txs, hn => by
    have hn' : n + 1 + xs.length < 2 ^ 32 := by simp at hn; omega
    rw [List.foldlM_cons, appendRawBlockRecord_blockRecordValue ht (by omega) txs x]
    refine (foldlM_appendRawBlockRecord ht xs (n + 1) (txs ++ [x]) hn').trans ?_
    rw [show n + (x :: xs).length = n + 1 + xs.length by simp; omega, List.append_assoc,
      List.singleton_append]

/-- A well-formed record decodes to its fields. -/
theorem readRawBlockRecord_blockRecordValue {height u : Int} (hh : InRange 32 height)
    (hu : InRange 64 u) (hash : ChainHash) {txs : List ChainHash} (hn : txs.length < 2 ^ 32) :
    readRawBlockRecord (keyBlockRecord height)
        (blockRecordValue hash (putUint 8 (toUnsigned 64 u)) txs.length txs) =
      .ok ⟨⟨hash, height⟩, u * Time.second, txs⟩ := by
  have hpre : (hash.val ++ putUint 8 (toUnsigned 64 u)).length = 40 := by
    simp [length_hash, hashSize]
  have hcount : getUint (bytesAt 40 4 (blockRecordValue hash (putUint 8 (toUnsigned 64 u))
      txs.length txs)) = txs.length := by
    rw [blockRecordValue, bytesAt_append hpre (length_putUint 4 _), getUint_putUint,
      Nat.mod_eq_of_lt (by simpa using hn)]
  have hkey : getUint ((keyBlockRecord height).take 4) = toUnsigned 32 height := by
    rw [keyBlockRecord, List.take_of_length_le (by simp), getUint_putUint,
      Nat.mod_eq_of_lt (by simpa using toUnsigned_lt 32 height)]
  have htime : getUint (bytesAt 32 8 (blockRecordValue hash (putUint 8 (toUnsigned 64 u))
      txs.length txs)) = toUnsigned 64 u := by
    rw [blockRecordValue, List.append_assoc, List.append_assoc, ← List.append_assoc hash.val,
      bytesAt_append (length_hash hash) (length_putUint 8 _), getUint_putUint,
      Nat.mod_eq_of_lt (by simpa using toUnsigned_lt 64 u)]
  have hrest : (blockRecordValue hash (putUint 8 (toUnsigned 64 u)) txs.length txs).drop 44 =
      (txs.map Subtype.val).flatten :=
    List.drop_left' (by simp [length_hash, hashSize])
  have hhash : copyHash (blockRecordValue hash (putUint 8 (toUnsigned 64 u)) txs.length txs) =
      hash := by
    rw [blockRecordValue, List.append_assoc, List.append_assoc, copyHash_append]
  have hlen := length_blockRecordValue hash (putUint 8 (toUnsigned 64 u)) txs.length txs
  rw [length_putUint] at hlen
  rw [readRawBlockRecord, if_neg (by rw [keyBlockRecord, length_putUint]; omega),
    if_neg (by rw [hlen]; omega)]
  dsimp only
  rw [hcount, if_neg (by rw [hlen, hashSize]; omega), hhash, hkey, htime, hrest,
    readHashes_flatten, toSigned_toUnsigned (by decide) hh, toSigned_toUnsigned (by decide) hu]

/-- **A block record round trip**: for a block of any `int32` height and any time, and
transactions `x₁ :: xs` fewer than `2 ^ 32`, the record `valueBlockRecord` writes with `x₁` takes
each of `xs` by `appendRawBlockRecord` (the fold returns a value only when every append
succeeds), and `readRawBlockRecord` decodes it under the block's key to the block's height and
hash, its time to the second, and `x₁ :: xs` in order. -/
theorem blockRecord_roundTrip (block : BlockMeta) (hh : InRange 32 block.block.height)
    (ht : InRange 64 (Time.unix block.time)) (x₁ : ChainHash) (xs : List ChainHash)
    (hn : (x₁ :: xs).length < 2 ^ 32) :
    ∃ v, xs.foldlM appendRawBlockRecord (valueBlockRecord block x₁) = .ok v ∧
      readRawBlockRecord (keyBlockRecord block.block.height) v =
        .ok ⟨block.block, Time.unix block.time * Time.second, x₁ :: xs⟩ := by
  have hfold : xs.foldlM appendRawBlockRecord (valueBlockRecord block x₁) =
      .ok (blockRecordValue block.block.hash (putUint 8 (toUnsigned 64 (Time.unix block.time)))
        (x₁ :: xs).length (x₁ :: xs)) := by
    rw [valueBlockRecord_eq, foldlM_appendRawBlockRecord (by simp) xs 1 [x₁]
      (by simpa [Nat.add_comm] using hn), Nat.add_comm 1 xs.length, List.length_cons]
    rfl
  exact ⟨_, hfold, readRawBlockRecord_blockRecordValue hh ht block.block.hash hn⟩

/-- A block at height `-1`, a second and a half before 1970, with two transactions. -/
theorem blockRecord_roundTrip_beforeEpoch :
    InRange 32 (-1) ∧ InRange 64 (Time.unix (-1500000000)) ∧
      ∃ v, [Node.byteHash 3].foldlM appendRawBlockRecord
          (valueBlockRecord ⟨⟨Node.byteHash 1, -1⟩, -1500000000⟩ (Node.byteHash 2)) = .ok v ∧
        readRawBlockRecord (keyBlockRecord (-1)) v =
          .ok ⟨⟨Node.byteHash 1, -1⟩, Time.unix (-1500000000) * Time.second,
            [Node.byteHash 2, Node.byteHash 3]⟩ :=
  ⟨by decide, by decide, blockRecord_roundTrip ⟨⟨Node.byteHash 1, -1⟩, -1500000000⟩ (by decide)
    (by decide) (Node.byteHash 2) [Node.byteHash 3] (by decide)⟩

/-! ### Key order -/

/-- **Block records sort by height**: for heights `0 ≤ h₁ < h₂ ≤ 2 ^ 31 - 1`, the key of `h₁`
comes first in byte order, the order the block iterators' cursors walk the bucket in. -/
theorem keyBlockRecord_lex_of_lt {h₁ h₂ : Int} (h₀ : 0 ≤ h₁) (h : h₁ < h₂)
    (hmax : h₂ ≤ 2 ^ 31 - 1) :
    List.Lex (· < ·) (keyBlockRecord h₁) (keyBlockRecord h₂) := by
  -- a height of that range is its own `uint32`
  have hcast : ∀ x : Int, 0 ≤ x → x ≤ 2 ^ 31 - 1 → toUnsigned 32 x = x.toNat := fun x h₀ h₁ => by
    rw [toUnsigned, Int.emod_eq_of_lt h₀ (by omega)]
  refine lex_of_getUint_lt (by rw [keyBlockRecord, keyBlockRecord, length_putUint, length_putUint]) ?_
  rw [keyBlockRecord, keyBlockRecord, getUint_putUint, getUint_putUint, hcast h₁ h₀ (by omega),
    hcast h₂ (by omega) hmax]
  omega

/-- Heights `0` and `256` differ in the third byte. -/
theorem keyBlockRecord_zero_lex_256 :
    0 ≤ (0 : Int) ∧ (0 : Int) < 256 ∧ (256 : Int) ≤ 2 ^ 31 - 1 ∧
      List.Lex (· < ·) (keyBlockRecord 0) (keyBlockRecord 256) :=
  ⟨by decide, by decide, by decide, keyBlockRecord_lex_of_lt (by decide) (by decide) (by decide)⟩

end Pod.TxMgr
