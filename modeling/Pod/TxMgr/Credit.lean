import Pod.TxMgr.Block

/-!
# Wallet transaction store — credits

A credit, in the bucket `"c"`, is keyed by its output's transaction hash, its block's height and
hash and the output's index (`keyCredit`, 72 bytes).  Its value is the amount as a `uint64` and a
flags byte, bit 0 for spent and bit 1 for change (`valueUnspentCredit`, 9 bytes); `spendCredit`
sets the spent bit and appends the key of the debit that spends it (81 bytes), and
`unspendRawCredit` cuts the value back to its first 9 bytes with the spent bit clear.  An unmined
credit, in `"mc"`, keeps the amount and the change bit alone (`valueUnminedCredit`).

* `take_spendValue`: a spend leaves the amount and the change bit as they were.
* `credit_spend_roundTrip`: a spent credit decodes to its amount and change flag, spent;
  `spendCredit` and `unspendRawCredit` return the amount, and the unspend writes back exactly
  the unspent value; an unmined credit's value decodes to its amount and change flag.
-/

namespace Pod.TxMgr

open Pod
open Pod.Node (ChainHash)

/-- A bucket: its keys and values.  `Put` replaces a key's value; `Get` of a missing key is
`nil`.  A failing `Put` is not modelled. -/
abbrev Bucket := GoMap (List UInt8) (List UInt8)

/-- `bucketCredits`. -/
def bucketCredits : GoString := GoString.ofAscii "c"

/-- A `credit`, with what its key and value record: the output's transaction hash and index,
its block, its amount (a `util.Amount`, an `int64`) and whether it is change. -/
structure Credit where
  txHash : ChainHash
  index : UInt32
  block : Block
  amount : Int
  change : Bool

/-- An `indexedIncidence`: the spending transaction's hash and block, and its input's index. -/
structure IndexedIncidence where
  txHash : ChainHash
  block : Block
  index : UInt32

/-- A `CreditRecord`: what `readElem` decodes. -/
structure CreditRecord where
  amount : Int
  index : UInt32
  spent : Bool
  change : Bool
  deriving DecidableEq

/-- `keyCredit`: the transaction hash, `uint32(block.Height)`, the block hash and the index. -/
def keyCredit (txHash : ChainHash) (index : UInt32) (block : Block) : List UInt8 :=
  txHash.val ++ putUint 4 (toUnsigned 32 block.height) ++ block.hash.val ++ putUint 4 index.toNat

/-- `valueUnspentCredit`: `uint64(cred.amount)`, and the flags byte with `v[8] |= 1 << 1` for
change. -/
def valueUnspentCredit (cred : Credit) : List UInt8 :=
  putUint 8 (toUnsigned 64 cred.amount) ++ [if cred.change then (0 : UInt8) ||| (1 : UInt8) <<< 1 else 0]

/-- `putUnspentCredit`. -/
def putUnspentCredit (credits : Bucket) (cred : Credit) : Bucket :=
  credits.insert (keyCredit cred.txHash cred.index cred.block) (valueUnspentCredit cred)

/-- What `spendCredit` writes: 81 bytes holding `v`'s, bit 0 of the flags set, and the debit's
key at `[9:81]`. -/
def spendValue (v : List UInt8) (spender : IndexedIncidence) : List UInt8 :=
  let newV := makeCopy 81 v
  let newV := newV.set 8 (newV.getD 8 0 ||| (1 : UInt8) <<< 0)
  let newV := writeAt 9 spender.txHash.val newV
  let newV := writeAt 41 (putUint 4 (toUnsigned 32 spender.block.height)) newV
  let newV := writeAt 45 spender.block.hash.val newV
  writeAt 77 (putUint 4 spender.index.toNat) newV

/-- `spendCredit`: the amount at `[0:8]` of the value written, and the bucket with it. -/
def spendCredit (credits : Bucket) (k : List UInt8) (spender : IndexedIncidence) :
    Int × Bucket :=
  let v := spendValue ((credits.lookup k).getD []) spender
  (toSigned 64 (getUint (v.take 8)), credits.insert k v)

/-- `unspendRawCredit`: nothing for a missing key; otherwise the first 9 bytes with bit 0 of the
flags cleared, and the amount at `[0:8]` of the old value.  A value shorter than 8 bytes panics
there (`none`): the slice `v[0:8]` reaches past its length. -/
def unspendRawCredit (credits : Bucket) (k : List UInt8) : Option (Int × Bucket) :=
  match credits.lookup k with
  | none => some (0, credits)
  | some v =>
    let newV := makeCopy 9 v
    let newV := newV.set 8 (newV.getD 8 0 &&& ~~~((1 : UInt8) <<< 0))
    if v.length < 8 then none else some (toSigned 64 (getUint (v.take 8)), credits.insert k newV)

/-- The shape of `fetchRawCreditAmountSpent`, `fetchRawCreditAmountChange` and
`fetchRawUnminedCreditAmountChange`: a value of at least 9 bytes, its amount and one bit of its
flags. -/
def fetchRawAmountFlag (shortDesc : Nat → GoString) (bit : UInt8) (v : List UInt8) :
    Except StoreError (Int × Bool) :=
  if v.length < 9 then .error ⟨.errData, shortDesc v.length⟩
  else .ok (toSigned 64 (getUint (v.take 8)), v.getD 8 0 &&& bit != 0)

/-- `fetchRawCreditAmountSpent`. -/
def fetchRawCreditAmountSpent : List UInt8 → Except StoreError (Int × Bool) :=
  fetchRawAmountFlag (shortRead bucketCredits 9) ((1 : UInt8) <<< 0)

/-- `fetchRawCreditAmountChange`. -/
def fetchRawCreditAmountChange : List UInt8 → Except StoreError (Int × Bool) :=
  fetchRawAmountFlag (shortRead bucketCredits 9) ((1 : UInt8) <<< 1)

/-- `fetchRawUnminedCreditAmountChange`. -/
def fetchRawUnminedCreditAmountChange : List UInt8 → Except StoreError (Int × Bool) :=
  fetchRawAmountFlag (fun _ => GoString.ofAscii "short unmined credit value") ((1 : UInt8) <<< 1)

/-- `creditIterator.readElem` at the key `ck` and value `cv`. -/
def readElem (ck cv : List UInt8) : Except StoreError CreditRecord :=
  if ck.length < 72 then .error ⟨.errData, shortKey bucketCredits 72 ck.length⟩
  else if cv.length < 9 then .error ⟨.errData, shortRead bucketCredits 9 cv.length⟩
  else .ok ⟨toSigned 64 (getUint (cv.take 8)), UInt32.ofNat (getUint (bytesAt 68 4 ck)),
    cv.getD 8 0 &&& (1 : UInt8) <<< 0 != 0, cv.getD 8 0 &&& (1 : UInt8) <<< 1 != 0⟩

/-- `valueUnminedCredit`: `uint64(amount)`, and the flags byte `1 << 1` for change. -/
def valueUnminedCredit (amount : Int) (change : Bool) : List UInt8 :=
  putUint 8 (toUnsigned 64 amount) ++ [if change then (1 : UInt8) <<< 1 else 0]

/-! ### The value's first nine bytes -/

/-- The flags byte of an unspent credit. -/
def changeFlags (change : Bool) : UInt8 := if change then 2 else 0

theorem valueUnspentCredit_eq (cred : Credit) :
    valueUnspentCredit cred = putUint 8 (toUnsigned 64 cred.amount) ++ [changeFlags cred.change] := by
  rcases cred with ⟨_, _, _, _, _ | _⟩ <;> rfl

theorem set_eight {pre post : List UInt8} (hpre : pre.length = 8) (b x : UInt8) :
    (pre ++ b :: post).set 8 x = pre ++ x :: post := by
  rw [List.set_append_right _ _ (by omega), hpre]
  rfl

theorem getD_eight {pre post : List UInt8} (hpre : pre.length = 8) (b : UInt8) :
    (pre ++ b :: post).getD 8 0 = b := by
  rw [List.getD_eq_getElem?_getD, List.getElem?_append_right (by omega), hpre, Nat.sub_self,
    List.getElem?_cons_zero]
  rfl

/-- **A spend leaves the amount and the change bit**: the value's first nine bytes are the
amount and the flags with bit 0 set, and it is 81 bytes long. -/
theorem take_spendValue (a : Nat) (flags : UInt8) (spender : IndexedIncidence) :
    (spendValue (putUint 8 a ++ [flags]) spender).take 9 = putUint 8 a ++ [flags ||| 1] ∧
      (spendValue (putUint 8 a ++ [flags]) spender).length = 81 := by
  have hcopy : makeCopy 81 (putUint 8 a ++ [flags]) = putUint 8 a ++ flags :: List.replicate 72 0 := by
    rw [makeCopy, List.take_of_length_le (by simp)]
    simp
  have hset : (makeCopy 81 (putUint 8 a ++ [flags])).set 8
      ((makeCopy 81 (putUint 8 a ++ [flags])).getD 8 0 ||| (1 : UInt8) <<< 0) =
        putUint 8 a ++ (flags ||| 1) :: List.replicate 72 0 := by
    rw [hcopy, getD_eight (length_putUint 8 a), set_eight (length_putUint 8 a)]
    rfl
  have hlen : (putUint 8 a ++ (flags ||| 1) :: List.replicate 72 0).length = 81 := by simp
  simp only [spendValue, hset]
  refine ⟨?_, by simp [hlen]⟩
  rw [take_writeAt _ (by omega) (by simp [hlen]), take_writeAt _ (by omega) (by simp [hlen]),
    take_writeAt _ (by omega) (by simp [hlen]), take_writeAt _ (by omega) (by simp [hlen]),
    List.take_append_eq_append_take, List.take_of_length_le (by simp), length_putUint]
  rfl

/-- The amount and the flags read back from a value's first nine bytes. -/
theorem amount_flags_of_take {v : List UInt8} {a : Int} {flags : UInt8} (ha : InRange 64 a)
    (h : v.take 9 = putUint 8 (toUnsigned 64 a) ++ [flags]) :
    toSigned 64 (getUint (v.take 8)) = a ∧ v.getD 8 0 = flags := by
  have h8 : v.take 8 = putUint 8 (toUnsigned 64 a) := by
    have := congrArg (List.take 8) h
    rwa [List.take_take, Nat.min_eq_left (by omega), List.take_left' (length_putUint 8 _)] at this
  refine ⟨?_, ?_⟩
  · rw [h8, getUint_putUint, Nat.mod_eq_of_lt (by simpa using toUnsigned_lt 64 a),
      toSigned_toUnsigned (by decide) ha]
  · rw [List.getD_eq_getElem?_getD, ← List.getElem?_take_of_lt (show 8 < 9 by omega), h,
      ← List.getD_eq_getElem?_getD, getD_eight (length_putUint 8 _)]

/-- The decoders of a value's amount and flags read them from its first nine bytes. -/
theorem fetchRawAmountFlag_of_take {v : List UInt8} {a : Int} {flags : UInt8}
    (ha : InRange 64 a) (h : v.take 9 = putUint 8 (toUnsigned 64 a) ++ [flags])
    (hlen : 9 ≤ v.length) (shortDesc : Nat → GoString) (bit : UInt8) :
    fetchRawAmountFlag shortDesc bit v = .ok (a, flags &&& bit != 0) := by
  obtain ⟨hamt, hflags⟩ := amount_flags_of_take ha h
  rw [fetchRawAmountFlag, if_neg (by omega), hamt, hflags]

theorem length_keyCredit (txHash : ChainHash) (index : UInt32) (block : Block) :
    (keyCredit txHash index block).length = 72 := by
  simp [keyCredit, length_hash, Node.hashSize]

theorem index_keyCredit (txHash : ChainHash) (index : UInt32) (block : Block) :
    UInt32.ofNat (getUint (bytesAt 68 4 (keyCredit txHash index block))) = index := by
  rw [keyCredit, ← List.append_nil (_ ++ putUint 4 index.toNat),
    bytesAt_append (by simp [length_hash, Node.hashSize]) (length_putUint 4 _), getUint_putUint,
    Nat.mod_eq_of_lt (by simpa using index.toNat_lt_size)]
  exact UInt32.toNat.inj (UInt32.toNat_ofNat_of_lt index.toNat_lt_size)

/-- **Spending and unspending a credit**: for a credit of any `int64` amount, either change
flag and any spender, the value `spendCredit` writes over `valueUnspentCredit` decodes through
`readElem`, `fetchRawCreditAmountSpent` and `fetchRawCreditAmountChange` to the amount and the
change flag, spent; `spendCredit` returns the amount; `unspendRawCredit` then returns it too and
writes back exactly `valueUnspentCredit`.  And `valueUnminedCredit` decodes through
`fetchRawUnminedCreditAmountChange` to its amount and change flag. -/
theorem credit_spend_roundTrip (credits : Bucket) {cred : Credit} (ha : InRange 64 cred.amount)
    (spender : IndexedIncidence) :
    ∃ newV, spendCredit (putUnspentCredit credits cred)
          (keyCredit cred.txHash cred.index cred.block) spender =
        (cred.amount, credits.insert (keyCredit cred.txHash cred.index cred.block) newV) ∧
      readElem (keyCredit cred.txHash cred.index cred.block) newV =
        .ok ⟨cred.amount, cred.index, true, cred.change⟩ ∧
      fetchRawCreditAmountSpent newV = .ok (cred.amount, true) ∧
      fetchRawCreditAmountChange newV = .ok (cred.amount, cred.change) ∧
      unspendRawCredit (credits.insert (keyCredit cred.txHash cred.index cred.block) newV)
          (keyCredit cred.txHash cred.index cred.block) =
        some (cred.amount, putUnspentCredit credits cred) ∧
      fetchRawUnminedCreditAmountChange (valueUnminedCredit cred.amount cred.change) =
        .ok (cred.amount, cred.change) := by
  obtain ⟨h9, hlen⟩ := take_spendValue (toUnsigned 64 cred.amount) (changeFlags cred.change)
    spender
  rw [← valueUnspentCredit_eq] at h9 hlen
  obtain ⟨hamt, hflags⟩ := amount_flags_of_take ha h9
  have hunmined : (valueUnminedCredit cred.amount cred.change).take 9 =
      putUint 8 (toUnsigned 64 cred.amount) ++ [changeFlags cred.change] := by
    rw [List.take_of_length_le (by simp [valueUnminedCredit])]
    cases cred.change <;> rfl
  refine ⟨spendValue (valueUnspentCredit cred) spender, ?_, ?_, ?_, ?_, ?_, ?_⟩
  · simp only [spendCredit, putUnspentCredit, AList.lookup_insert, Option.getD_some,
      AList.insert_insert, hamt]
  · rw [readElem, if_neg (by rw [length_keyCredit]; omega), if_neg (by omega), hamt, hflags,
      index_keyCredit]
    cases cred.change <;> rfl
  · rw [fetchRawCreditAmountSpent, fetchRawAmountFlag_of_take ha h9 (by omega)]
    cases cred.change <;> rfl
  · rw [fetchRawCreditAmountChange, fetchRawAmountFlag_of_take ha h9 (by omega)]
    cases cred.change <;> rfl
  · -- the first nine bytes back, with the spent bit cleared
    have hclear : (changeFlags cred.change ||| (1 : UInt8)) &&& ~~~((1 : UInt8) <<< 0) =
        changeFlags cred.change := by
      cases cred.change <;> rfl
    have hcopy : makeCopy 9 (spendValue (valueUnspentCredit cred) spender) =
        putUint 8 (toUnsigned 64 cred.amount) ++ [changeFlags cred.change ||| 1] := by
      rw [makeCopy_of_le (n := 9) (v := spendValue (valueUnspentCredit cred) spender) (by omega), h9]
    rw [unspendRawCredit, AList.lookup_insert]
    dsimp only
    rw [hcopy, getD_eight (length_putUint 8 _), set_eight (length_putUint 8 _), hclear,
      ← valueUnspentCredit_eq, if_neg (by omega), hamt, AList.insert_insert]
    rfl
  · rw [fetchRawUnminedCreditAmountChange, fetchRawAmountFlag_of_take ha hunmined
      (by simp [valueUnminedCredit])]
    cases cred.change <;> rfl

/-- A change credit of `-5`, spent by input `0` of a transaction in block `101`. -/
def negativeChange : Credit := ⟨Node.byteHash 1, 3, ⟨Node.byteHash 2, 100⟩, -5, true⟩

/-- The spender of `negativeChange`. -/
def spenderAt101 : IndexedIncidence := ⟨Node.byteHash 4, ⟨Node.byteHash 5, 101⟩, 0⟩

/-- A negative amount goes through the `uint64` casts. -/
theorem credit_spend_roundTrip_negativeChange :
    InRange 64 negativeChange.amount ∧
      ∃ newV, spendCredit (putUnspentCredit ∅ negativeChange)
            (keyCredit negativeChange.txHash negativeChange.index negativeChange.block)
            spenderAt101 =
          (-5, (∅ : Bucket).insert
            (keyCredit negativeChange.txHash negativeChange.index negativeChange.block) newV) ∧
        readElem (keyCredit negativeChange.txHash negativeChange.index negativeChange.block) newV =
          .ok ⟨-5, 3, true, true⟩ ∧
        fetchRawCreditAmountSpent newV = .ok (-5, true) ∧
        fetchRawCreditAmountChange newV = .ok (-5, true) ∧
        unspendRawCredit ((∅ : Bucket).insert
            (keyCredit negativeChange.txHash negativeChange.index negativeChange.block) newV)
            (keyCredit negativeChange.txHash negativeChange.index negativeChange.block) =
          some (-5, putUnspentCredit ∅ negativeChange) ∧
        fetchRawUnminedCreditAmountChange (valueUnminedCredit (-5) true) = .ok (-5, true) :=
  ⟨by decide, @credit_spend_roundTrip ∅ negativeChange (by decide) spenderAt101⟩

end Pod.TxMgr
