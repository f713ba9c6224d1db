import Pod.TxMgr.Cursor
import Pod.TxMgr.Unspent

/-!
# Wallet transaction store — iterators

`db.go` reads runs of records through cursors: the credit and debit iterators walk the records
under a transaction record's key (`keyTxRecord`, 68 bytes), the unmined credit iterator those
under a transaction hash, `latestTxRecord` the transaction records under a hash, and the block
iterators the block records from a height up, or from the top down.  Each is the loop of its
`next` (or `prev`) over the cursor of `TxMgr/Cursor.lean`.  Debits, in the bucket `"d"`, are keyed
as credits are and hold the amount and the key of the credit they spend.

* `prefixIterators_read`: each prefix iterator reads exactly the entries under its prefix, in key
  order, up to the first that does not decode.
* `latestTxRecord_newest`: the record `latestTxRecord` returns is from the highest block holding
  the transaction.
* `blockIterators_read`: the forward iterator reads the records from the height's key up, and the
  reverse iterator every record from the top down, when the keys are four bytes long.
* `creditIterator_putUnspentCredit`: credits written with `putUnspentCredit` are read back once
  each, in increasing output index.
* `debits_putDebit`: debits written with `putDebit` are found by `existsDebit` with the credit
  key they spend, and read back by the debit iterator once each, in increasing input index.
-/

namespace Pod.TxMgr

open Pod
open Pod.Node (ChainHash)

/-! ### The records the iterators decode -/

/-- `bucketDebits`. -/
def bucketDebits : GoString := GoString.ofAscii "d"

/-- A `DebitRecord`: what `debitIterator.readElem` decodes. -/
structure DebitRecord where
  amount : Int
  index : UInt32
  deriving DecidableEq

/-- `debitIterator.readElem` at the key `ck` and value `cv`. -/
def debitIterator.readElem (ck cv : List UInt8) : Except StoreError DebitRecord :=
  if ck.length < 72 then .error ⟨.errData, shortKey bucketDebits 72 ck.length⟩
  else if cv.length < 80 then .error ⟨.errData, shortRead bucketDebits 80 cv.length⟩
  else .ok ⟨toSigned 64 (getUint (cv.take 8)), UInt32.ofNat (getUint (bytesAt 68 4 ck))⟩

/-- `fetchRawUnminedCreditIndex`: `Uint32(k[32:36])` of a key of at least 36 bytes. -/
def fetchRawUnminedCreditIndex (k : List UInt8) : Except StoreError UInt32 :=
  if k.length < 36 then .error ⟨.errData, GoString.ofAscii "short unmined credit key"⟩
  else .ok (UInt32.ofNat (getUint (bytesAt 32 4 k)))

/-- `unminedCreditIterator.readElem`: the index from the key, the amount and the change flag from
the value; `Spent` is not set, and stays the zero value it starts as. -/
def unminedCreditIterator.readElem (ck cv : List UInt8) : Except StoreError CreditRecord := do
  let index ← fetchRawUnminedCreditIndex ck
  let (amount, change) ← fetchRawUnminedCreditAmountChange cv
  return ⟨amount, index, false, change⟩

/-! ### The prefix iterators -/

/-- `makeReadCreditIterator(ns, prefix)`, then `it.next()` until it returns `false`: the records
read, and `it.err`. -/
def creditIterator (credits : Bucket) (pfx : List UInt8) : List CreditRecord × Option StoreError :=
  prefixLoop readElem pfx (seek (cursorEntries credits) pfx)

/-- `makeReadDebitIterator(ns, prefix)`, then `it.next()` until it returns `false`. -/
def debitIterator (debits : Bucket) (pfx : List UInt8) : List DebitRecord × Option StoreError :=
  prefixLoop debitIterator.readElem pfx (seek (cursorEntries debits) pfx)

/-- `makeReadUnminedCreditIterator(ns, txHash)`, then `it.next()` until it returns `false`. -/
def unminedCreditIterator (unminedCredits : Bucket) (txHash : ChainHash) :
    List CreditRecord × Option StoreError :=
  prefixLoop unminedCreditIterator.readElem txHash.val (seek (cursorEntries unminedCredits) txHash.val)

/-- **The prefix iterators read exactly what lies under their prefix**: for every bucket and
every non-empty prefix, the credit and debit iterators read the entries whose keys start with the
prefix, in key order, up to the first that does not decode; the unmined credit iterator does the
same under its transaction's hash. -/
theorem prefixIterators_read (credits debits unminedCredits : Bucket) {pfx : List UInt8}
    (hp : pfx ≠ []) (txHash : ChainHash) :
    creditIterator credits pfx =
        readAll readElem ((cursorEntries credits).filter fun e => pfx.isPrefixOf e.1) ∧
      debitIterator debits pfx =
        readAll debitIterator.readElem ((cursorEntries debits).filter fun e => pfx.isPrefixOf e.1) ∧
      unminedCreditIterator unminedCredits txHash =
        readAll unminedCreditIterator.readElem
          ((cursorEntries unminedCredits).filter fun e => txHash.val.isPrefixOf e.1) :=
  have hh : txHash.val ≠ [] := List.ne_nil_of_length_pos (by rw [txHash.property]; decide)
  ⟨prefixLoop_seek hp (cursorEntries_sorted _), prefixLoop_seek hp (cursorEntries_sorted _),
    prefixLoop_seek hh (cursorEntries_sorted _)⟩

/-- A transaction record at height `5`. -/
def recordAt5 : Block := ⟨Node.byteHash 2, 5⟩

/-- Credits of transaction `1`'s record at height `5`, written out of index order, between
credits of transactions `0` and `2`. -/
def mixedCredits : Bucket :=
  [⟨Node.byteHash 0, 0, recordAt5, 1, false⟩, ⟨Node.byteHash 1, 1, recordAt5, 7, true⟩,
    ⟨Node.byteHash 2, 0, recordAt5, 2, false⟩, ⟨Node.byteHash 1, 0, recordAt5, -3, false⟩].foldl
    putUnspentCredit ∅

/-- A debit of transaction `1`'s record at height `5` beside one of transaction `2`. -/
def mixedDebits : Bucket :=
  ((∅ : Bucket).insert (keyCredit (Node.byteHash 2) 0 recordAt5)
    (putUint 8 5 ++ keyCredit (Node.byteHash 0) 0 recordAt5)).insert
    (keyCredit (Node.byteHash 1) 0 recordAt5) (putUint 8 7 ++ keyCredit (Node.byteHash 0) 0 recordAt5)

/-- Two unmined outputs of transaction `1`, the second with a value cut short, and one of
transaction `2`. -/
def mixedUnmined : Bucket :=
  (((∅ : Bucket).insert ((Node.byteHash 2).val ++ putUint 4 0) (valueUnminedCredit 2 false)).insert
    ((Node.byteHash 1).val ++ putUint 4 1) [0]).insert ((Node.byteHash 1).val ++ putUint 4 0)
    (valueUnminedCredit 7 true)

set_option maxRecDepth 20000 in
/-- Under the prefix of transaction `1`'s record the credit iterator reads its two credits and
the debit iterator its one debit, past the other transactions' records; under transaction `1`'s
hash the unmined credit iterator reads the first output and stops at the second. -/
theorem prefixIterators_read_mixed :
    keyTxRecord (Node.byteHash 1) recordAt5 ≠ [] ∧
      ((cursorEntries mixedCredits).filter
        fun e => (keyTxRecord (Node.byteHash 1) recordAt5).isPrefixOf e.1).length = 2 ∧
      ((cursorEntries mixedDebits).filter
        fun e => (keyTxRecord (Node.byteHash 1) recordAt5).isPrefixOf e.1).length = 1 ∧
      (unminedCreditIterator mixedUnmined (Node.byteHash 1)).1.length = 1 ∧
      (unminedCreditIterator mixedUnmined (Node.byteHash 1)).2.isSome ∧
      creditIterator mixedCredits (keyTxRecord (Node.byteHash 1) recordAt5) =
        readAll readElem ((cursorEntries mixedCredits).filter
          fun e => (keyTxRecord (Node.byteHash 1) recordAt5).isPrefixOf e.1) ∧
      debitIterator mixedDebits (keyTxRecord (Node.byteHash 1) recordAt5) =
        readAll debitIterator.readElem ((cursorEntries mixedDebits).filter
          fun e => (keyTxRecord (Node.byteHash 1) recordAt5).isPrefixOf e.1) ∧
      unminedCreditIterator mixedUnmined (Node.byteHash 1) =
        readAll unminedCreditIterator.readElem
          ((cursorEntries mixedUnmined).filter fun e => (Node.byteHash 1).val.isPrefixOf e.1) :=
  ⟨by decide, by decide, by decide, by decide, by decide,
    prefixIterators_read mixedCredits mixedDebits mixedUnmined (by decide) (Node.byteHash 1)⟩

/-! ### The newest transaction record -/

/-- `latestTxRecord`'s loop from `Seek(prefix)`: each entry whose key starts with the prefix
becomes the last one seen, and the first key without it ends the loop.  The cursor's end is a
`nil` key, which lacks the 32-byte prefix. -/
def latestTxRecordLoop (pfx : List UInt8) : Option Entry → List Entry → Option Entry
  | last, [] => last
  | last, (ck, cv) :: rest =>
    if pfx.isPrefixOf ck then latestTxRecordLoop pfx (some (ck, cv)) rest else last

/-- `latestTxRecord`: the last record, in key order, of the run under the transaction's hash;
`none` is the `(nil, nil)` it returns when there is none. -/
def latestTxRecord (txRecords : Bucket) (txHash : ChainHash) : Option Entry :=
  latestTxRecordLoop txHash.val none (seek (cursorEntries txRecords) txHash.val)

theorem latestTxRecordLoop_eq (pfx : List UInt8) :
    ∀ (last : Option Entry) (es : List Entry),
    latestTxRecordLoop pfx last es = ((es.takeWhile fun e => pfx.isPrefixOf e.1).getLast?).or last
  | last, [] => by simp [latestTxRecordLoop]
  | last, (ck, cv) :: rest => by
    by_cases hk : pfx.isPrefixOf ck
    · simp only [latestTxRecordLoop, List.takeWhile_cons, hk, ↓reduceIte, List.getLast?_cons,
        latestTxRecordLoop_eq pfx _ rest]
      cases (rest.takeWhile fun e => pfx.isPrefixOf e.1).getLast? <;> rfl
    · simp [latestTxRecordLoop, hk]

/-- `latestTxRecord` returns the last of the records under the hash, in key order. -/
theorem latestTxRecord_eq (txRecords : Bucket) (txHash : ChainHash) :
    latestTxRecord txRecords txHash =
      ((cursorEntries txRecords).filter fun e => txHash.val.isPrefixOf e.1).getLast? := by
  have hs := cursorEntries_sorted txRecords
  rw [latestTxRecord, latestTxRecordLoop_eq, filter_seek,
    takeWhile_prefix_eq_filter (hs.sublist (seek_sublist _ _)) (not_lex_of_mem_seek hs), Option.or_none]

/-- **`latestTxRecord` returns the greatest key under the hash**: the entry it returns is in the
bucket, its key starts with the hash, and every other key that does sorts below it. -/
theorem latestTxRecord_greatest {txRecords : Bucket} {txHash : ChainHash} {k v : List UInt8}
    (h : latestTxRecord txRecords txHash = some (k, v)) :
    txRecords.lookup k = some v ∧ txHash.val <+: k ∧
      ∀ k' v', txRecords.lookup k' = some v' → txHash.val <+: k' →
        k' = k ∨ List.Lex (· < ·) k' k := by
  rw [latestTxRecord_eq] at h
  obtain ⟨ys, hys⟩ := List.getLast?_eq_some_iff.mp h
  have hmem : ∀ k' v', txRecords.lookup k' = some v' → txHash.val <+: k' →
      (k', v') ∈ ys ++ [(k, v)] := fun k' v' hl hp => by
    rw [← hys, List.mem_filter, mem_cursorEntries]
    exact ⟨hl, List.isPrefixOf_iff_prefix.mpr hp⟩
  have hkv : (k, v) ∈ (cursorEntries txRecords).filter fun e => txHash.val.isPrefixOf e.1 := by
    rw [hys]
    exact List.mem_append_right _ (List.mem_singleton_self _)
  rw [List.mem_filter, mem_cursorEntries, List.isPrefixOf_iff_prefix] at hkv
  have hsorted := (cursorEntries_sorted txRecords).filter (fun e => txHash.val.isPrefixOf e.1)
  rw [hys, List.pairwise_append] at hsorted
  refine ⟨hkv.1, hkv.2, fun k' v' hl hp => ?_⟩
  rcases List.mem_append.mp (hmem k' v' hl hp) with hy | hy
  · exact .inr (hsorted.2.2 _ hy _ (List.mem_singleton_self _))
  · exact .inl (congrArg Prod.fst (List.mem_singleton.mp hy))


/-- Of two heights `0 ≤ h₁ < h₂ < 2 ^ 31`, the smaller's `uint32` sorts first. -/
theorem lex_putUint_height {h₁ h₂ : Int} (h₀ : 0 ≤ h₁) (h : h₁ < h₂) (hmax : h₂ < 2 ^ 31) :
    List.Lex (· < ·) (putUint 4 (toUnsigned 32 h₁)) (putUint 4 (toUnsigned 32 h₂)) := by
  have hcast : ∀ x : Int, 0 ≤ x → x < 2 ^ 31 → toUnsigned 32 x % 256 ^ 4 = x.toNat :=
    fun x h₀ h₁ => by
      rw [toUnsigned, Int.emod_eq_of_lt h₀ (by omega), Nat.mod_eq_of_lt (by omega)]
  refine lex_of_getUint_lt (by rw [length_putUint, length_putUint]) ?_
  rw [getUint_putUint, getUint_putUint, hcast h₁ h₀ (by omega), hcast h₂ (by omega) hmax]
  exact (Int.toNat_lt_toNat (by omega)).mpr h

theorem prefix_keyTxRecord (txHash : ChainHash) (block : Block) :
    txHash.val <+: keyTxRecord txHash block :=
  ⟨_, (List.append_assoc _ _ _).symm⟩

/-- **`latestTxRecord` finds the newest block**: whatever the bucket holds, when it returns the
record of `txHash` in block `b`, no record of `txHash` in a block `b'` of a greater height is
there, for heights in `0 .. 2 ^ 31 - 1` (where a height's `uint32` is the height). -/
theorem latestTxRecord_newest {txRecords : Bucket} {txHash : ChainHash} {b b' : Block}
    {v v' : List UInt8} (h : latestTxRecord txRecords txHash = some (keyTxRecord txHash b, v))
    (h' : txRecords.lookup (keyTxRecord txHash b') = some v') (h₀ : 0 ≤ b.height)
    (hmax : b'.height < 2 ^ 31) : b'.height ≤ b.height := by
  refine Int.not_lt.mp fun hlt => ?_
  have hkey : List.Lex (· < ·) (keyTxRecord txHash b) (keyTxRecord txHash b') := by
    rw [keyTxRecord, keyTxRecord, List.append_assoc, List.append_assoc]
    exact List.Lex.append_left _ (lex_append_of_lex _ _ (lex_putUint_height h₀ hlt hmax)
      (by rw [length_putUint, length_putUint])) _
  rcases (latestTxRecord_greatest h).2.2 _ _ h' (prefix_keyTxRecord txHash b') with heq | hl
  · exact lex_irrefl _ (heq ▸ hkey)
  · exact lex_asymm hkey hl

/-- A transaction record at height `9`. -/
def recordAt9 : Block := ⟨Node.byteHash 4, 9⟩

/-- Records of transaction `1` at heights `9` and `5`, written in that order. -/
def twoTxRecords : Bucket :=
  ((∅ : Bucket).insert (keyTxRecord (Node.byteHash 1) recordAt9) [2]).insert
    (keyTxRecord (Node.byteHash 1) recordAt5) [1]

/-- With records of transaction `1` at heights `5` and `9`, `latestTxRecord` returns the one at
`9`, and the other is below it. -/
theorem latestTxRecord_newest_two :
    latestTxRecord twoTxRecords (Node.byteHash 1) =
        some (keyTxRecord (Node.byteHash 1) recordAt9, [2]) ∧
      twoTxRecords.lookup (keyTxRecord (Node.byteHash 1) recordAt5) = some [1] ∧
      0 ≤ recordAt9.height ∧ recordAt5.height < 2 ^ 31 ∧ recordAt5.height ≤ recordAt9.height :=
  have h : latestTxRecord twoTxRecords (Node.byteHash 1) =
      some (keyTxRecord (Node.byteHash 1) recordAt9, [2]) := by decide
  have h' : twoTxRecords.lookup (keyTxRecord (Node.byteHash 1) recordAt5) = some [1] := by decide
  ⟨h, h', by decide, by decide, latestTxRecord_newest h h' (by decide) (by decide)⟩

/-! ### The block iterators -/

/-- `makeReadBlockIterator(ns, height)`, then `it.next()` until it returns `false`: from
`Seek(uint32(height))`, the entries to the cursor's end, each decoded by `readRawBlockRecord`,
up to the first error. -/
def blockIteratorNext (blocks : Bucket) (height : Int) : List BlockRecord × Option StoreError :=
  readAll readRawBlockRecord (seek (cursorEntries blocks) (putUint 4 (toUnsigned 32 height)))

/-- The key `makeReadReverseBlockIterator` seeks: `^uint32(0)`. -/
def reverseSeek : List UInt8 := putUint 4 (2 ^ 32 - 1)

/-- `makeReadReverseBlockIterator(ns)`, then `it.prev()` until it returns `false`.  The first call
seeks `^uint32(0)` and steps back once when the key found does not start with it (when no key was
found, `Prev` moves to the last entry); each later call steps back once.  The entries are read
from the first call's down to the first of the bucket, up to the first that does not decode. -/
def blockIteratorPrev (blocks : Bucket) : List BlockRecord × Option StoreError :=
  let below := (cursorEntries blocks).takeWhile fun e => decide (List.Lex (· < ·) e.1 reverseSeek)
  let start := match seek (cursorEntries blocks) reverseSeek with
    | (ck, cv) :: _ => if reverseSeek.isPrefixOf ck then below ++ [(ck, cv)] else below
    | [] => below
  readAll readRawBlockRecord start.reverse

/-- A four-byte key not below `^uint32(0)` is `^uint32(0)`. -/
theorem eq_reverseSeek {k : List UInt8} (hk : k.length = 4)
    (h : ¬ List.Lex (· < ·) k reverseSeek) : k = reverseSeek := by
  have hlt := getUint_lt k
  rw [hk] at hlt
  have hval : getUint k = 2 ^ 32 - 1 := by
    refine Nat.le_antisymm (by omega) (Nat.not_lt.mp fun hv => h ?_)
    refine lex_of_getUint_lt (by rw [hk, reverseSeek, length_putUint]) ?_
    rw [reverseSeek, getUint_putUint]
    omega
  rw [← putUint_getUint k, hk, hval]
  rfl

/-- **The reverse block iterator reads every block record**, from the greatest key down, when
every key is four bytes long, as `keyBlockRecord` writes them. -/
theorem blockIteratorPrev_eq (blocks : Bucket)
    (hk : ∀ k v, blocks.lookup k = some v → k.length = 4) :
    blockIteratorPrev blocks = readAll readRawBlockRecord (cursorEntries blocks).reverse := by
  have hs := cursorEntries_sorted blocks
  have htop : ∀ e ∈ seek (cursorEntries blocks) reverseSeek, e.1 = reverseSeek := fun e he =>
    eq_reverseSeek (hk e.1 e.2 (mem_cursorEntries.mp ((seek_sublist _ _).subset he)))
      (not_lex_of_mem_seek hs e he)
  have hsplit := List.takeWhile_append_dropWhile
    (fun e => decide (List.Lex (· < ·) e.1 reverseSeek)) (cursorEntries blocks)
  rw [← seek] at hsplit
  unfold blockIteratorPrev
  split
  · rename_i ck cv rest hseek
    have hck : ck = reverseSeek := htop _ (hseek ▸ List.mem_cons_self _ _)
    have hrest : rest = [] := List.eq_nil_iff_forall_not_mem.mpr fun e he => by
      have hsk := (hs.sublist (seek_sublist _ reverseSeek))
      rw [hseek, List.pairwise_cons] at hsk
      have := hsk.1 e he
      rw [hck, htop e (hseek ▸ List.mem_cons_of_mem _ he)] at this
      exact lex_irrefl _ this
    rw [hseek, hrest] at hsplit
    subst hck
    dsimp only
    rw [if_pos (List.isPrefixOf_iff_prefix.mpr (List.prefix_refl _)), hsplit]
  · rename_i hseek
    rw [hseek, List.append_nil] at hsplit
    dsimp only
    rw [hsplit]

/-- **The block iterators' reads**: from a height, the forward iterator reads, in key order, the
records whose key is not below the height's; and when every key is four bytes long, as
`keyBlockRecord` writes them, the reverse iterator reads every record, from the greatest key
down.  Each stops at the first record that does not decode. -/
theorem blockIterators_read (blocks : Bucket) (height : Int)
    (hk : ∀ k ∈ blocks.keys, k.length = 4) :
    blockIteratorNext blocks height = readAll readRawBlockRecord
        ((cursorEntries blocks).filter fun e => !decide (List.Lex (· < ·) e.1 (keyBlockRecord height))) ∧
      blockIteratorPrev blocks = readAll readRawBlockRecord (cursorEntries blocks).reverse :=
  ⟨by rw [blockIteratorNext, seek_eq_filter (cursorEntries_sorted _)]; rfl,
    blockIteratorPrev_eq blocks fun k _ h =>
      hk k (AList.mem_keys.mpr (AList.lookup_isSome.mp (by rw [h]; rfl)))⟩

/-- Blocks at heights `1` and `-1`, whose key is `^uint32(0)`. -/
def blocksOneAndTop : Bucket :=
  ((∅ : Bucket).insert (keyBlockRecord 1) []).insert (keyBlockRecord (-1)) []

/-- The two keys are four bytes long. -/
theorem blockIterators_read_oneAndTop :
    (∀ k ∈ blocksOneAndTop.keys, k.length = 4) ∧
      blockIteratorNext blocksOneAndTop 0 = readAll readRawBlockRecord
        ((cursorEntries blocksOneAndTop).filter
          fun e => !decide (List.Lex (· < ·) e.1 (keyBlockRecord 0))) ∧
      blockIteratorPrev blocksOneAndTop =
        readAll readRawBlockRecord (cursorEntries blocksOneAndTop).reverse :=
  ⟨by decide, blockIterators_read blocksOneAndTop 0 (by decide)⟩


/-! ### Credits written, then iterated -/

/-- What `putUnspentCredit` writes: the credit's key and its unspent value. -/
def unspentCreditEntry (cred : Credit) : Entry :=
  (keyCredit cred.txHash cred.index cred.block, valueUnspentCredit cred)

/-- The record `readElem` decodes from an unspent credit. -/
def unspentCreditRecord (cred : Credit) : CreditRecord := ⟨cred.amount, cred.index, false, cred.change⟩

theorem readElem_unspentCreditEntry {cred : Credit} (ha : InRange 64 cred.amount) :
    readElem (unspentCreditEntry cred).1 (unspentCreditEntry cred).2 =
      .ok (unspentCreditRecord cred) := by
  have h9 : (valueUnspentCredit cred).take 9 =
      putUint 8 (toUnsigned 64 cred.amount) ++ [changeFlags cred.change] := by
    rw [valueUnspentCredit_eq, List.take_of_length_le (by simp)]
  obtain ⟨hamt, hflags⟩ := amount_flags_of_take ha h9
  rw [unspentCreditEntry, readElem, if_neg (by rw [length_keyCredit]; omega),
    if_neg (by rw [valueUnspentCredit_eq]; simp), hamt, hflags, index_keyCredit, unspentCreditRecord]
  cases cred.change <;> rfl

/-- Credits of one transaction record sort by output index. -/
theorem lex_keyCredit {txHash : ChainHash} {block : Block} {i j : UInt32} (h : i < j) :
    List.Lex (· < ·) (keyCredit txHash i block) (keyCredit txHash j block) := by
  refine List.Lex.append_left _ (lex_of_getUint_lt (by rw [length_putUint, length_putUint]) ?_) _
  rw [getUint_putUint, getUint_putUint, Nat.mod_eq_of_lt (by simpa using i.toNat_lt_size),
    Nat.mod_eq_of_lt (by simpa using j.toNat_lt_size)]
  exact h

theorem index_lt_of_lex_keyCredit {txHash : ChainHash} {block : Block} {i j : UInt32}
    (h : List.Lex (· < ·) (keyCredit txHash i block) (keyCredit txHash j block)) : i < j := by
  rcases Nat.lt_trichotomy i.toNat j.toNat with hij | hij | hij
  · exact hij
  · exact absurd (UInt32.ext hij ▸ h) (lex_irrefl _)
  · exact absurd (lex_keyCredit hij) (lex_asymm h)


/-- **Credits written are iterated back in index order**: put the unspent credits of one
transaction record, with distinct output indices and `int64` amounts, into a credits bucket
holding nothing under that record's key; the credit iterator over the record's key then reads
each credit once, with its amount, index and change flag and not spent, in increasing index
order, and no error. -/
theorem creditIterator_putUnspentCredit (credits : Bucket) (txHash : ChainHash) (block : Block)
    (cs : List Credit) (hc : ∀ c ∈ cs, c.txHash = txHash ∧ c.block = block)
    (hnd : (cs.map Credit.index).Nodup) (ha : ∀ c ∈ cs, InRange 64 c.amount)
    (hfresh : ∀ k ∈ credits.keys, ¬ keyTxRecord txHash block <+: k) :
    ∃ recs, creditIterator (cs.foldl putUnspentCredit credits) (keyTxRecord txHash block) =
        (recs, none) ∧ recs.Perm (cs.map unspentCreditRecord) ∧
      recs.Pairwise fun r r' => r.index < r'.index := by
  have hkey : ∀ c ∈ cs, (unspentCreditEntry c).1 = keyCredit txHash c.index block := fun c hc' => by
    rw [unspentCreditEntry, (hc c hc').1, (hc c hc').2]
  -- distinct indices, distinct keys
  have hidx : (cs.map fun c => (unspentCreditEntry c).1).map
      (fun k => UInt32.ofNat (getUint (bytesAt 68 4 k))) = cs.map Credit.index := by
    rw [List.map_map]
    exact List.map_congr_left fun c _ => index_keyCredit _ _ _
  exact prefixLoop_written (List.ne_nil_of_length_pos (by simp [keyTxRecord])) unspentCreditEntry
    unspentCreditRecord (fun r r' => r.index < r'.index) credits cs (List.Nodup.of_map _ (hidx ▸ hnd))
    (fun c hc' => hkey c hc' ▸ ⟨_, rfl⟩) hfresh (fun c hc' => readElem_unspentCreditEntry (ha c hc'))
    fun c hc' c' hc'' hlt => index_lt_of_lex_keyCredit (hkey c hc' ▸ hkey c' hc'' ▸ hlt)

/-- Two change credits of one transaction, written out of index order. -/
def twoCredits : List Credit :=
  [⟨Node.byteHash 1, 1, recordAt5, 7, true⟩, ⟨Node.byteHash 1, 0, recordAt5, -3, false⟩]

/-- The two credits come back by index. -/
theorem creditIterator_putUnspentCredit_two :
    (∀ c ∈ twoCredits, c.txHash = Node.byteHash 1 ∧ c.block = recordAt5) ∧
      (twoCredits.map Credit.index).Nodup ∧ (∀ c ∈ twoCredits, InRange 64 c.amount) ∧
      (∀ k ∈ (∅ : Bucket).keys, ¬ keyTxRecord (Node.byteHash 1) recordAt5 <+: k) ∧
      ∃ recs, creditIterator (twoCredits.foldl putUnspentCredit ∅)
          (keyTxRecord (Node.byteHash 1) recordAt5) = (recs, none) ∧
        recs.Perm (twoCredits.map unspentCreditRecord) ∧
        recs.Pairwise fun r r' => r.index < r'.index :=
  ⟨by decide, by decide, by decide, by decide,
    creditIterator_putUnspentCredit ∅ (Node.byteHash 1) recordAt5 twoCredits (by decide) (by decide)
      (by decide) (by decide)⟩

/-! ### Debits -/

/-- `keyDebit`: the transaction hash, `uint32(block.Height)`, the block hash and the input's
index; the first 68 bytes are the transaction record's key. -/
def keyDebit (txHash : ChainHash) (index : UInt32) (block : Block) : List UInt8 :=
  txHash.val ++ putUint 4 (toUnsigned 32 block.height) ++ block.hash.val ++ putUint 4 index.toNat

/-- `putDebit`: the value is `uint64(amount)` and then the credit's key copied into the next 72
bytes of 80. -/
def putDebit (debits : Bucket) (txHash : ChainHash) (index : UInt32) (amount : Int) (block : Block)
    (credKey : List UInt8) : Bucket :=
  debits.insert (keyDebit txHash index block) (putUint 8 (toUnsigned 64 amount) ++ makeCopy 72 credKey)

/-- `extractRawDebitCreditKey`: `v[8:80]`, which panics (`none`) on a value shorter than 80
bytes. -/
def extractRawDebitCreditKey (v : List UInt8) : Option (List UInt8) :=
  if v.length < 80 then none else some (bytesAt 8 72 v)

/-- `existsDebit`: for a debit present, its key and the credit key `v[8:80]`, and an error for a
value shorter than 80 bytes; `none` is the pair of `nil`s for a missing debit. -/
def existsDebit (debits : Bucket) (txHash : ChainHash) (index : UInt32) (block : Block) :
    Except StoreError (Option (List UInt8 × List UInt8)) :=
  match debits.lookup (keyDebit txHash index block) with
  | none => .ok none
  | some v =>
    if v.length < 80 then .error ⟨.errData, shortRead bucketDebits 80 v.length⟩
    else .ok (some (keyDebit txHash index block, bytesAt 8 72 v))

/-- What `putDebit` is given: the spending transaction's hash, the input's index, the amount, the
block and the key of the credit spent. -/
structure Debit where
  txHash : ChainHash
  index : UInt32
  amount : Int
  block : Block
  credKey : List UInt8

/-- What `putDebit` writes for a debit. -/
def debitEntry (d : Debit) : Entry :=
  (keyDebit d.txHash d.index d.block, putUint 8 (toUnsigned 64 d.amount) ++ makeCopy 72 d.credKey)

/-- A debit key has a credit key's layout. -/
theorem keyDebit_eq_keyCredit (txHash : ChainHash) (index : UInt32) (block : Block) :
    keyDebit txHash index block = keyCredit txHash index block := rfl

theorem readElem_debitEntry {d : Debit} (ha : InRange 64 d.amount) :
    debitIterator.readElem (debitEntry d).1 (debitEntry d).2 = .ok ⟨d.amount, d.index⟩ := by
  have h8 : (putUint 8 (toUnsigned 64 d.amount) ++ makeCopy 72 d.credKey).take 8 =
      putUint 8 (toUnsigned 64 d.amount) := List.take_left' (length_putUint 8 _)
  rw [debitEntry, debitIterator.readElem, keyDebit_eq_keyCredit, if_neg (by rw [length_keyCredit]; omega),
    if_neg (by simp), h8, getUint_putUint, Nat.mod_eq_of_lt (by simpa using toUnsigned_lt 64 d.amount),
    toSigned_toUnsigned (by decide) ha, index_keyCredit]

theorem bytesAt_debitValue (amount : Int) {credKey : List UInt8} (hk : credKey.length = 72) :
    bytesAt 8 72 (putUint 8 (toUnsigned 64 amount) ++ makeCopy 72 credKey) = credKey := by
  have hc : makeCopy 72 credKey = credKey := by
    rw [makeCopy_of_le (by omega), List.take_of_length_le (by omega)]
  rw [hc, bytesAt, List.drop_left' (length_putUint 8 _), List.take_of_length_le (by omega)]

/-- **Debits written are found and iterated back**: put the debits of one transaction record,
with distinct input indices, `int64` amounts and 72-byte credit keys, into a debits bucket holding
nothing under that record's key.  Then `existsDebit` finds each with its credit key, and
`extractRawDebitCreditKey` reads that key from its value; and the debit iterator over the
record's key reads each debit once, with its amount and index, in increasing index order, and no
error. -/
theorem debits_putDebit (debits : Bucket) (txHash : ChainHash) (block : Block) (ds : List Debit)
    (hd : ∀ d ∈ ds, d.txHash = txHash ∧ d.block = block ∧ InRange 64 d.amount ∧ d.credKey.length = 72)
    (hnd : (ds.map Debit.index).Nodup)
    (hfresh : ∀ k ∈ debits.keys, ¬ keyTxRecord txHash block <+: k) :
    (∀ d ∈ ds,
      existsDebit (ds.foldl (fun b d => putDebit b d.txHash d.index d.amount d.block d.credKey) debits)
          txHash d.index block = .ok (some (keyDebit txHash d.index block, d.credKey)) ∧
        ∃ v, (ds.foldl (fun b d => putDebit b d.txHash d.index d.amount d.block d.credKey) debits).lookup
            (keyDebit txHash d.index block) = some v ∧ extractRawDebitCreditKey v = some d.credKey) ∧
      ∃ recs, debitIterator (ds.foldl (fun b d => putDebit b d.txHash d.index d.amount d.block d.credKey)
          debits) (keyTxRecord txHash block) = (recs, none) ∧
        recs.Perm (ds.map fun d => (⟨d.amount, d.index⟩ : DebitRecord)) ∧
        recs.Pairwise fun r r' => r.index < r'.index := by
  have hkey : ∀ d ∈ ds, (debitEntry d).1 = keyCredit txHash d.index block := fun d hd' => by
    rw [debitEntry, (hd d hd').1, (hd d hd').2.1]; rfl
  have hidx : (ds.map fun d => (debitEntry d).1).map
      (fun k => UInt32.ofNat (getUint (bytesAt 68 4 k))) = ds.map Debit.index := by
    rw [List.map_map]
    exact List.map_congr_left fun d _ => index_keyCredit _ _ _
  have hndK : (ds.map fun d => (debitEntry d).1).Nodup := List.Nodup.of_map _ (hidx ▸ hnd)
  have hfold : ds.foldl (fun b d => putDebit b d.txHash d.index d.amount d.block d.credKey) debits =
      ds.foldl (fun b d => b.insert (debitEntry d).1 (debitEntry d).2) debits := rfl
  refine ⟨fun d hd' => ?_, ?_⟩
  · -- the debit's own value, read back
    obtain ⟨htx, hblk, -, hk⟩ := hd d hd'
    have hlook : (ds.foldl (fun b d => putDebit b d.txHash d.index d.amount d.block d.credKey)
        debits).lookup (keyDebit txHash d.index block) =
          some (putUint 8 (toUnsigned 64 d.amount) ++ makeCopy 72 d.credKey) := by
      rw [← htx, ← hblk]
      exact (lookup_foldl_insert debitEntry ds debits hndK (debitEntry d).1 (debitEntry d).2).mpr
        (.inl (List.mem_map_of_mem debitEntry hd'))
    have hlen : ¬ (putUint 8 (toUnsigned 64 d.amount) ++ makeCopy 72 d.credKey).length < 80 := by
      simp
    refine ⟨?_, _, hlook, ?_⟩
    · simp only [existsDebit, hlook, if_neg hlen, bytesAt_debitValue _ hk]
    · rw [extractRawDebitCreditKey, if_neg hlen, bytesAt_debitValue _ hk]
  · rw [hfold]
    exact prefixLoop_written (List.ne_nil_of_length_pos (by simp [keyTxRecord])) debitEntry
      (fun d => ⟨d.amount, d.index⟩) (fun r r' => r.index < r'.index) debits ds hndK
      (fun d hd' => hkey d hd' ▸ ⟨_, rfl⟩) hfresh (fun d hd' => readElem_debitEntry (hd d hd').2.2.1)
      fun d hd' d' hd'' hlt => index_lt_of_lex_keyCredit (hkey d hd' ▸ hkey d' hd'' ▸ hlt)

/-- Two inputs of one transaction, spending the two credits of `twoCredits`. -/
def twoDebits : List Debit :=
  [⟨Node.byteHash 3, 1, 7, recordAt5, keyCredit (Node.byteHash 1) 1 recordAt5⟩,
    ⟨Node.byteHash 3, 0, -3, recordAt5, keyCredit (Node.byteHash 1) 0 recordAt5⟩]

/-- The two debits are found, and come back by index. -/
theorem debits_putDebit_two :
    (∀ d ∈ twoDebits, d.txHash = Node.byteHash 3 ∧ d.block = recordAt5 ∧ InRange 64 d.amount ∧
        d.credKey.length = 72) ∧
      (twoDebits.map Debit.index).Nodup ∧
      (∀ k ∈ (∅ : Bucket).keys, ¬ keyTxRecord (Node.byteHash 3) recordAt5 <+: k) ∧
      (∀ d ∈ twoDebits,
        existsDebit (twoDebits.foldl (fun b d => putDebit b d.txHash d.index d.amount d.block d.credKey) ∅)
            (Node.byteHash 3) d.index recordAt5 =
          .ok (some (keyDebit (Node.byteHash 3) d.index recordAt5, d.credKey)) ∧
        ∃ v, (twoDebits.foldl (fun b d => putDebit b d.txHash d.index d.amount d.block d.credKey)
            ∅).lookup (keyDebit (Node.byteHash 3) d.index recordAt5) = some v ∧
          extractRawDebitCreditKey v = some d.credKey) ∧
      ∃ recs, debitIterator (twoDebits.foldl
          (fun b d => putDebit b d.txHash d.index d.amount d.block d.credKey) ∅)
          (keyTxRecord (Node.byteHash 3) recordAt5) = (recs, none) ∧
        recs.Perm (twoDebits.map fun d => (⟨d.amount, d.index⟩ : DebitRecord)) ∧
        recs.Pairwise fun r r' => r.index < r'.index :=
  ⟨by decide, by decide, by decide,
    debits_putDebit ∅ (Node.byteHash 3) recordAt5 twoDebits (by decide) (by decide) (by decide)⟩

end Pod.TxMgr
