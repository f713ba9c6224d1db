import Pod.Support.Slice
import Pod.Support.Encoding

/-!
# Block database — the write cursor

`ffldb` keeps in its metadata where the next block will be written: the block file and the
offset in it, then a Castagnoli CRC-32 of those eight bytes, each as a `uint32` in the package's
`byteOrder` (`serializeWriteRow`, 12 bytes).  At start-up `reconcileDB` loads the row with
`deserializeWriteRow`, which checks the checksum, and compares the position with the one the
scan of the block files found: files that run past it are rolled back to it, and files that
stop short of it are reported as corruption.

`hash/crc32` is not in this repository, nor is the declaration of `byteOrder`: the checksum and
the byte order are parameters, and every result holds for every checksum function and either
byte order.  The row read from the metadata is a slice with its capacity
(`Window`); `writeRow[:8]` and `writeRow[8:12]` are taken before any length check, and panic
(`none`) when the capacity is short of them.

* `deserializeWriteRow_serializeWriteRow`: a written row reads back as its file and offset.
* `serializeWriteRow_of_deserializeWriteRow`: a row of 12 bytes or more reads back as a checksum
  error, or as the file and offset whose row is its first 12 bytes.
* `reconcileDB_short_row_panics`: a row of 8 bytes crashes `reconcileDB`, whatever the files.
-/

namespace Pod.Ffldb

open Pod

/-- The `database` error code these functions raise: `ErrCorruption`. -/
inductive ErrorCode where
  | errCorruption
  deriving DecidableEq, Repr

/-- `makeDbErr(code, desc, nil)`. -/
structure DbError where
  code : ErrorCode
  description : GoString
  deriving DecidableEq, Repr

/-- `ffldb`'s `byteOrder`, a `binary.ByteOrder`. -/
inductive ByteOrder where
  | bigEndian
  | littleEndian
  deriving DecidableEq, Repr

/-- `byteOrder.PutUint32`, as the four bytes it writes. -/
def ByteOrder.putUint32 : ByteOrder → Nat → List UInt8
  | .bigEndian, v => putUint 4 v
  | .littleEndian, v => (putUint 4 v).reverse

/-- `byteOrder.Uint32` of four bytes. -/
def ByteOrder.uint32 : ByteOrder → List UInt8 → Nat
  | .bigEndian, b => getUint b
  | .littleEndian, b => getUint b.reverse

/-- `serializeWriteRow`: a zero `[12]byte` with the file number at `[0:4]`, the offset at `[4:8]`,
and the checksum of `[:8]` at `[8:12]`. -/
def serializeWriteRow (byteOrder : ByteOrder) (checksum : List UInt8 → UInt32)
    (curBlockFileNum curFileOffset : UInt32) : List UInt8 :=
  let serializedRow := writeAt 4 (byteOrder.putUint32 curFileOffset.toNat)
    (writeAt 0 (byteOrder.putUint32 curBlockFileNum.toNat) (List.replicate 12 0))
  writeAt 8 (byteOrder.putUint32 (checksum (serializedRow.take 8)).toNat) serializedRow

/-- The description of a checksum mismatch: `%d` of each checksum. -/
def checksumMismatch (gotChecksum wantChecksum : UInt32) : GoString :=
  GoString.ofAscii "metadata for write cursor does not match the expected checksum - got " ++
    formatNat gotChecksum.toNat ++ GoString.ofAscii ", want " ++ formatNat wantChecksum.toNat

/-- `deserializeWriteRow`: the checksum of `writeRow[:8]` against `Uint32(writeRow[8:12])`, then
`Uint32(writeRow[0:4])` and `Uint32(writeRow[4:8])`. -/
def deserializeWriteRow (byteOrder : ByteOrder) (checksum : List UInt8 → UInt32)
    (writeRow : Window UInt8) : Option (Except DbError (UInt32 × UInt32)) := do
  let gotChecksum := checksum (← writeRow.slice 0 8).elems
  let wantChecksumBytes ← writeRow.slice 8 12
  let wantChecksum := UInt32.ofNat (byteOrder.uint32 wantChecksumBytes.elems)
  if gotChecksum ≠ wantChecksum then
    return .error ⟨.errCorruption, checksumMismatch gotChecksum wantChecksum⟩
  else
    let fileNum := UInt32.ofNat (byteOrder.uint32 (← writeRow.slice 0 4).elems)
    let fileOffset := UInt32.ofNat (byteOrder.uint32 (← writeRow.slice 4 8).elems)
    return .ok (fileNum, fileOffset)

/-- The position the scan of the block files found: `pdb.store.writeCursor`. -/
structure WriteCursor where
  curFileNum : UInt32
  curOffset : UInt32
  deriving DecidableEq, Repr

/-- How `reconcileDB` returns the database: after `handleRollback` to the metadata's position,
or with the files as they were. -/
inductive Reconciled where
  | rolledBack (curFileNum curOffset : UInt32)
  | unchanged
  deriving DecidableEq, Repr

/-- The description of files that stop short of the metadata's position. -/
def cursorBehind (curFileNum curOffset : UInt32) (wc : WriteCursor) : GoString :=
  GoString.ofAscii "metadata claims file " ++ formatNat curFileNum.toNat ++
    GoString.ofAscii ", offset " ++ formatNat curOffset.toNat ++
    GoString.ofAscii ", but block data is at file " ++ formatNat wc.curFileNum.toNat ++
    GoString.ofAscii ", offset " ++ formatNat wc.curOffset.toNat

/-- `reconcileDB` past its `create` step, on the metadata's row (`nil` when missing) and the
scanned position.  `handleRollback` (not in this repository) moves the scanned position back to
the metadata's, so the second comparison then finds them equal. -/
def reconcileDB (byteOrder : ByteOrder) (checksum : List UInt8 → UInt32)
    (writeRow : Option (Window UInt8)) (wc : WriteCursor) : Option (Except DbError Reconciled) := do
  let loaded ← match writeRow with
    | none => some (.error ⟨.errCorruption, GoString.ofAscii "write cursor does not exist"⟩)
    | some writeRow => deserializeWriteRow byteOrder checksum writeRow
  match loaded with
  | .error err => return .error err
  | .ok (curFileNum, curOffset) =>
    if wc.curFileNum > curFileNum ∨ (wc.curFileNum = curFileNum ∧ wc.curOffset > curOffset) then
      return .ok (.rolledBack curFileNum curOffset)
    else if wc.curFileNum < curFileNum ∨ (wc.curFileNum = curFileNum ∧ wc.curOffset < curOffset) then
      return .error ⟨.errCorruption, cursorBehind curFileNum curOffset wc⟩
    else return .ok .unchanged

/-! ### The byte order -/

namespace ByteOrder

@[simp] theorem length_putUint32 (byteOrder : ByteOrder) (v : Nat) :
    (byteOrder.putUint32 v).length = 4 := by
  cases byteOrder <;> simp [putUint32]

/-- `Uint32` reads back what `PutUint32` wrote. -/
theorem uint32_putUint32 (byteOrder : ByteOrder) (i : UInt32) :
    UInt32.ofNat (byteOrder.uint32 (byteOrder.putUint32 i.toNat)) = i := by
  cases byteOrder
  · exact uint32_getUint_putUint i
  · rw [uint32, putUint32, List.reverse_reverse]
    exact uint32_getUint_putUint i

/-- `PutUint32` writes back the four bytes `Uint32` read. -/
theorem putUint32_uint32 (byteOrder : ByteOrder) {bytes : List UInt8} (h : bytes.length = 4) :
    byteOrder.putUint32 (UInt32.ofNat (byteOrder.uint32 bytes)).toNat = bytes := by
  cases byteOrder
  · exact putUint_uint32_getUint h
  · rw [uint32, putUint32, putUint_uint32_getUint (by rw [List.length_reverse, h]),
      List.reverse_reverse]

end ByteOrder

/-! ### The row -/

variable {byteOrder : ByteOrder} {checksum : List UInt8 → UInt32}

theorem serializeWriteRow_eq (f o : UInt32) :
    serializeWriteRow byteOrder checksum f o =
      byteOrder.putUint32 f.toNat ++ byteOrder.putUint32 o.toNat ++
        byteOrder.putUint32 (checksum (byteOrder.putUint32 f.toNat ++
          byteOrder.putUint32 o.toNat)).toNat := by
  -- the three writes, each over four zero bytes
  have hz : List.replicate 12 (0 : UInt8) =
      [] ++ List.replicate 4 0 ++ (List.replicate 4 0 ++ List.replicate 4 0) := rfl
  have h₁ := @writeAt_append [] (List.replicate 4 0) (List.replicate 4 0 ++ List.replicate 4 0)
    (byteOrder.putUint32 f.toNat) 0 rfl (by simp)
  have h₂ := @writeAt_append (byteOrder.putUint32 f.toNat) (List.replicate 4 0)
    (List.replicate 4 0) (byteOrder.putUint32 o.toNat) 4 (by simp) (by simp)
  have h₃ : (byteOrder.putUint32 f.toNat ++ byteOrder.putUint32 o.toNat ++
      List.replicate 4 0).take 8 = byteOrder.putUint32 f.toNat ++ byteOrder.putUint32 o.toNat :=
    List.take_left' (by simp)
  have h₄ := @writeAt_append (byteOrder.putUint32 f.toNat ++ byteOrder.putUint32 o.toNat)
    (List.replicate 4 0) [] (byteOrder.putUint32 (checksum (byteOrder.putUint32 f.toNat ++
      byteOrder.putUint32 o.toNat)).toNat) 8 (by simp) (by simp)
  rw [List.append_nil, List.append_nil] at h₄
  rw [serializeWriteRow, hz, h₁, List.nil_append, ← List.append_assoc, h₂, h₃, h₄]

@[simp] theorem length_serializeWriteRow (f o : UInt32) :
    (serializeWriteRow byteOrder checksum f o).length = 12 := by
  simp [serializeWriteRow_eq]

/-- A row with 12 bytes: the checksum test on its bytes, then the two fields. -/
theorem deserializeWriteRow_of_le_len {writeRow : Window UInt8} (h : 12 ≤ writeRow.len) :
    deserializeWriteRow byteOrder checksum writeRow =
      some (if checksum (writeRow.elems.take 8) ≠
          UInt32.ofNat (byteOrder.uint32 (bytesAt 8 4 writeRow.elems))
        then .error ⟨.errCorruption, checksumMismatch (checksum (writeRow.elems.take 8))
          (UInt32.ofNat (byteOrder.uint32 (bytesAt 8 4 writeRow.elems)))⟩
        else .ok (UInt32.ofNat (byteOrder.uint32 (writeRow.elems.take 4)),
          UInt32.ofNat (byteOrder.uint32 (bytesAt 4 4 writeRow.elems)))) := by
  obtain ⟨s₁, h₁, e₁⟩ := @Window.elems_slice _ writeRow 0 8 (by omega) (by omega)
  obtain ⟨s₂, h₂, e₂⟩ := @Window.elems_slice _ writeRow 8 12 (by omega) (by omega)
  obtain ⟨s₃, h₃, e₃⟩ := @Window.elems_slice _ writeRow 0 4 (by omega) (by omega)
  obtain ⟨s₄, h₄, e₄⟩ := @Window.elems_slice _ writeRow 4 8 (by omega) (by omega)
  simp only [deserializeWriteRow, h₁, h₂, h₃, h₄, e₁, e₂, e₃, e₄, Option.bind_eq_bind,
    Option.some_bind, List.drop_zero, bytesAt]
  split <;> rfl

/-- **A row panics exactly when its capacity is short of 12 bytes.** -/
theorem deserializeWriteRow_eq_none_iff (writeRow : Window UInt8) :
    deserializeWriteRow byteOrder checksum writeRow = none ↔ writeRow.cap < 12 := by
  by_cases hc : writeRow.cap < 12
  · refine iff_of_true ?_ hc
    by_cases h₈ : 8 ≤ writeRow.cap
    · simp only [deserializeWriteRow, Window.slice_room (by omega : 0 ≤ 8) h₈,
        Window.slice_eq_none.mpr (by omega : ¬ (8 ≤ 12 ∧ 12 ≤ writeRow.cap)), Option.bind_eq_bind,
        Option.some_bind, Option.none_bind]
    · simp only [deserializeWriteRow, Window.slice_eq_none.mpr (by omega : ¬ (0 ≤ 8 ∧ 8 ≤ writeRow.cap)),
        Option.bind_eq_bind, Option.none_bind]
  · refine iff_of_false ?_ hc
    simp only [deserializeWriteRow, Window.slice_room (by omega : 0 ≤ 8) (by omega : 8 ≤ writeRow.cap),
      Window.slice_room (by omega : 8 ≤ 12) (by omega : 12 ≤ writeRow.cap),
      Window.slice_room (by omega : 0 ≤ 4) (by omega : 4 ≤ writeRow.cap),
      Window.slice_room (by omega : 4 ≤ 8) (by omega : 8 ≤ writeRow.cap), Option.bind_eq_bind,
      Option.some_bind]
    split <;> simp

/-- The three fields of a 12-byte row. -/
theorem fields_of_row {a b c : List UInt8} (ha : a.length = 4) (hb : b.length = 4)
    (hc : c.length = 4) :
    (a ++ b ++ c).take 8 = a ++ b ∧ bytesAt 8 4 (a ++ b ++ c) = c ∧ (a ++ b ++ c).take 4 = a ∧
      bytesAt 4 4 (a ++ b ++ c) = b := by
  refine ⟨List.take_left' (by simp [ha, hb]), ?_, ?_, bytesAt_append ha hb⟩
  · rw [← List.append_nil (a ++ b ++ c)]
    exact bytesAt_append (by simp [ha, hb]) hc
  · rw [List.append_assoc]
    exact List.take_left' ha

/-- **A written row reads back** as its file and offset, in either byte order, under every
checksum function, and whatever the slice's capacity past it. -/
theorem deserializeWriteRow_serializeWriteRow (byteOrder : ByteOrder)
    (checksum : List UInt8 → UInt32) (f o : UInt32) (spare : List UInt8) :
    deserializeWriteRow byteOrder checksum
        (Window.ofList (serializeWriteRow byteOrder checksum f o) spare) = some (.ok (f, o)) := by
  obtain ⟨h8, hc, h4, hb⟩ := fields_of_row (byteOrder.length_putUint32 f.toNat)
    (byteOrder.length_putUint32 o.toNat) (byteOrder.length_putUint32 _)
  rw [deserializeWriteRow_of_le_len (by simp), Window.elems_ofList, serializeWriteRow_eq, h8, hc,
    h4, hb, ByteOrder.uint32_putUint32, ByteOrder.uint32_putUint32, ByteOrder.uint32_putUint32,
    if_neg fun h => h rfl]

/-- **What reads back is well formed**: a row of 12 bytes or more reads back as a checksum error,
or as a file and an offset whose written row is the row's first 12 bytes. -/
theorem serializeWriteRow_of_deserializeWriteRow {writeRow : Window UInt8} (h : 12 ≤ writeRow.len) :
    (∃ description, deserializeWriteRow byteOrder checksum writeRow =
        some (.error ⟨.errCorruption, description⟩)) ∨
      ∃ f o, deserializeWriteRow byteOrder checksum writeRow = some (.ok (f, o)) ∧
        serializeWriteRow byteOrder checksum f o = writeRow.elems.take 12 := by
  rw [deserializeWriteRow_of_le_len h]
  split
  · exact .inl ⟨_, rfl⟩
  rename_i hsum
  refine .inr ⟨_, _, rfl, ?_⟩
  have hlen : 12 ≤ writeRow.elems.length := by rw [Window.length_elems]; exact h
  -- the first 12 bytes are the three fields
  have h8 : writeRow.elems.take 8 = writeRow.elems.take 4 ++ bytesAt 4 4 writeRow.elems :=
    List.take_add _ 4 4
  have h12 : writeRow.elems.take 12 =
      writeRow.elems.take 4 ++ bytesAt 4 4 writeRow.elems ++ bytesAt 8 4 writeRow.elems := by
    rw [← h8]
    exact List.take_add _ 8 4
  have h₀ : (writeRow.elems.take 4).length = 4 := by rw [List.length_take]; omega
  have hb : ∀ k, k ≤ 8 → (bytesAt k 4 writeRow.elems).length = 4 := fun k hk => by
    rw [bytesAt, List.length_take, List.length_drop]; omega
  rw [serializeWriteRow_eq, byteOrder.putUint32_uint32 h₀, byteOrder.putUint32_uint32 (hb 4 (by omega)),
    ← h8, Decidable.of_not_not hsum, byteOrder.putUint32_uint32 (hb 8 le_rfl), h12, h8]

/-- A little-endian row of file `1` at offset `2`, under a checksum that is always `7`, reads
back as file `1` and offset `2`; with its checksum byte changed, as a checksum error. -/
theorem serializeWriteRow_of_deserializeWriteRow_le :
    (12 ≤ (Window.ofList [1, 0, 0, 0, 2, 0, 0, 0, 7, 0, 0, 0] []).len ∧
      ((∃ description, deserializeWriteRow .littleEndian (fun _ => 7)
          (Window.ofList [1, 0, 0, 0, 2, 0, 0, 0, 7, 0, 0, 0] []) =
          some (.error ⟨.errCorruption, description⟩)) ∨
        ∃ f o, deserializeWriteRow .littleEndian (fun _ => 7)
            (Window.ofList [1, 0, 0, 0, 2, 0, 0, 0, 7, 0, 0, 0] []) = some (.ok (f, o)) ∧
          serializeWriteRow .littleEndian (fun _ => 7) f o =
            (Window.ofList [1, 0, 0, 0, 2, 0, 0, 0, 7, 0, 0, 0] []).elems.take 12)) ∧
    deserializeWriteRow .littleEndian (fun _ => 7)
        (Window.ofList [1, 0, 0, 0, 2, 0, 0, 0, 7, 0, 0, 0] []) = some (.ok (1, 2)) ∧
    (12 ≤ (Window.ofList [1, 0, 0, 0, 2, 0, 0, 0, 8, 0, 0, 0] []).len ∧
      ((∃ description, deserializeWriteRow .littleEndian (fun _ => 7)
          (Window.ofList [1, 0, 0, 0, 2, 0, 0, 0, 8, 0, 0, 0] []) =
          some (.error ⟨.errCorruption, description⟩)) ∨
        ∃ f o, deserializeWriteRow .littleEndian (fun _ => 7)
            (Window.ofList [1, 0, 0, 0, 2, 0, 0, 0, 8, 0, 0, 0] []) = some (.ok (f, o)) ∧
          serializeWriteRow .littleEndian (fun _ => 7) f o =
            (Window.ofList [1, 0, 0, 0, 2, 0, 0, 0, 8, 0, 0, 0] []).elems.take 12)) :=
  ⟨⟨by decide, serializeWriteRow_of_deserializeWriteRow (by decide)⟩, rfl,
    ⟨by decide, serializeWriteRow_of_deserializeWriteRow (by decide)⟩⟩

/-- **A truncated row crashes `reconcileDB`**: the first 8 bytes of any written row, read as a
slice of 8, make `deserializeWriteRow` slice `[8:12]` past the capacity, so `reconcileDB`
panics instead of reporting the corruption, whatever the byte order, the checksum function and
the files. -/
theorem reconcileDB_short_row_panics (byteOrder : ByteOrder) (checksum : List UInt8 → UInt32)
    (f o : UInt32) (wc : WriteCursor) :
    deserializeWriteRow byteOrder checksum
        (Window.ofList ((serializeWriteRow byteOrder checksum f o).take 8) []) = none ∧
      reconcileDB byteOrder checksum
        (some (Window.ofList ((serializeWriteRow byteOrder checksum f o).take 8) [])) wc = none := by
  have h := (@deserializeWriteRow_eq_none_iff byteOrder checksum
    (Window.ofList ((serializeWriteRow byteOrder checksum f o).take 8) [])).mpr (by simp)
  exact ⟨h, by simp only [reconcileDB, h, Option.bind_eq_bind, Option.none_bind]⟩

end Pod.Ffldb
