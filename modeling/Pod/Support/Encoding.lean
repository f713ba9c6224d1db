import Pod.Support.Go

/-!
# Support — numbers as bytes and as text

How Go writes a number out and reads it back.  `binary.BigEndian` puts an unsigned integer in a
fixed number of bytes, most significant first (`putUint`, `getUint`); a conversion between a
signed and an unsigned integer of one width keeps the two's-complement bits (`toUnsigned`,
`toSigned`); `fmt`'s `%d` writes decimal digits (`formatNat`, `formatInt`) and
`strconv.ParseInt` reads them (`parseInt`).

* `getUint_putUint`: a field reads back as the value written, modulo its width.
* `lex_of_getUint_lt`: of two big-endian fields of one width, the smaller value sorts first.
* `toSigned_toUnsigned`: a signed value in range survives the conversion to unsigned and back.
* `parseInt_formatInt`: `%d` of a non-negative `int64` parses back to it.
* `take_writeAt`: a write into a byte slice leaves the bytes before it alone.
-/

namespace Pod

/-! ### `binary.BigEndian` -/

/-- `binary.BigEndian.PutUintN` for `width` bytes: the low `8 * width` bits of `v`, most
significant byte first. -/
def putUint : Nat → Nat → List UInt8
  | 0, _ => []
  | width + 1, v => putUint width (v / 256) ++ [UInt8.ofNat (v % 256)]

/-- `binary.BigEndian.UintN` over the bytes it reads: their value, most significant first. -/
def getUint (bytes : List UInt8) : Nat := bytes.foldl (fun acc b => acc * 256 + b.toNat) 0

@[simp] theorem length_putUint (width v : Nat) : (putUint width v).length = width := by
  induction width generalizing v <;> simp [putUint, *]

theorem getUint_append_single (bytes : List UInt8) (b : UInt8) :
    getUint (bytes ++ [b]) = getUint bytes * 256 + b.toNat := by
  simp [getUint, List.foldl_append]

theorem getUint_putUint (width v : Nat) : getUint (putUint width v) = v % 256 ^ width := by
  induction width generalizing v with
  | zero => simp [putUint, getUint, Nat.mod_one]
  | succ width ih =>
    rw [putUint, getUint_append_single, ih, UInt8.toNat_ofNat_of_lt (Nat.mod_lt _ (by decide)),
      Nat.pow_succ', Nat.mod_mul]
    ring

/-- `binary.BigEndian.Uint32` reads back what `PutUint32` wrote. -/
theorem uint32_getUint_putUint (i : UInt32) : UInt32.ofNat (getUint (putUint 4 i.toNat)) = i := by
  rw [getUint_putUint, Nat.mod_eq_of_lt (by simpa using i.toNat_lt_size)]
  exact UInt32.toNat.inj (UInt32.toNat_ofNat_of_lt i.toNat_lt_size)

theorem foldl_getUint (acc : Nat) (bytes : List UInt8) :
    bytes.foldl (fun acc b => acc * 256 + b.toNat) acc = acc * 256 ^ bytes.length + getUint bytes := by
  induction bytes generalizing acc with
  | nil => simp [getUint]
  | cons b bytes ih =>
    rw [List.foldl_cons, ih]
    conv_rhs => rw [getUint, List.foldl_cons, ih]
    rw [List.length_cons]
    ring

theorem getUint_cons (b : UInt8) (bytes : List UInt8) :
    getUint (b :: bytes) = b.toNat * 256 ^ bytes.length + getUint bytes := by
  rw [getUint, List.foldl_cons, foldl_getUint, Nat.zero_mul, Nat.zero_add]

theorem getUint_lt (bytes : List UInt8) : getUint bytes < 256 ^ bytes.length := by
  induction bytes with
  | nil => decide
  | cons b bytes ih =>
    have hb : b.toNat < 256 := b.toNat_lt_size
    calc getUint (b :: bytes) < (b.toNat + 1) * 256 ^ bytes.length := by
          rw [getUint_cons, Nat.add_mul, Nat.one_mul]; omega
      _ ≤ 256 ^ (b :: bytes).length := by
          rw [List.length_cons, Nat.pow_succ, Nat.mul_comm _ 256]
          exact Nat.mul_le_mul_right _ hb

/-- Bytes are the big-endian bytes of their value. -/
theorem putUint_getUint (bytes : List UInt8) : putUint bytes.length (getUint bytes) = bytes := by
  induction bytes using List.reverseRecOn with
  | nil => rfl
  | append_singleton bytes b ih =>
    have hb : b.toNat < 256 := b.toNat_lt_size
    rw [List.length_append, List.length_singleton, putUint, getUint_append_single,
      show (getUint bytes * 256 + b.toNat) / 256 = getUint bytes by omega,
      show (getUint bytes * 256 + b.toNat) % 256 = b.toNat by omega, ih,
      UInt8.toNat.inj (UInt8.toNat_ofNat_of_lt hb)]

/-- Four bytes read as a `uint32` and written back. -/
theorem putUint_uint32_getUint {bytes : List UInt8} (h : bytes.length = 4) :
    putUint 4 (UInt32.ofNat (getUint bytes)).toNat = bytes := by
  have hlt := getUint_lt bytes
  rw [h] at hlt
  rw [UInt32.toNat_ofNat_of_lt hlt, ← h, putUint_getUint]

theorem uint8_lt_iff {a b : UInt8} : a < b ↔ a.toNat < b.toNat := BitVec.lt_def

/-- **Big-endian order is byte order**: of two byte strings of one length, the one of the
smaller value comes first lexicographically. -/
theorem lex_of_getUint_lt : ∀ {l₁ l₂ : List UInt8}, l₁.length = l₂.length →
    getUint l₁ < getUint l₂ → List.Lex (· < ·) l₁ l₂
  | [], [], _, h => absurd h (Nat.lt_irrefl _)
  | a :: as, b :: bs, hl, h => by
    have hn : as.length = bs.length := Nat.succ.inj hl
    have hx := getUint_lt as
    have hy := getUint_lt bs
    rw [getUint_cons, getUint_cons, hn] at h
    rw [hn] at hx
    by_cases hab : a.toNat < b.toNat
    · exact .rel (uint8_lt_iff.mpr hab)
    -- the first bytes are equal: a larger one would outweigh every tail
    have hba : ¬ b.toNat < a.toNat := fun hba => by
      have : (b.toNat + 1) * 256 ^ bs.length ≤ a.toNat * 256 ^ bs.length :=
        Nat.mul_le_mul_right _ hba
      rw [Nat.add_mul, Nat.one_mul] at this
      omega
    have heq : a.toNat = b.toNat := by omega
    rw [heq] at h
    rw [UInt8.toNat.inj heq]
    exact .cons (lex_of_getUint_lt hn (by omega))
  | [], _ :: _, hl, _ | _ :: _, [], hl, _ => absurd hl (by simp)

/-! ### Byte slices -/

/-- `v[off:off+len]`, for a read that stays within `v`. -/
def bytesAt (off len : Nat) (v : List UInt8) : List UInt8 := (v.drop off).take len

/-- `copy(dst[off:], src)`: `src`'s bytes over `dst`'s from `off`, as many as fit. -/
def writeAt (off : Nat) (src dst : List UInt8) : List UInt8 :=
  dst.take off ++ src.take (dst.length - off) ++ dst.drop (off + src.length)

/-- `newV := make([]byte, n); copy(newV, v)`: the first `n` bytes of `v`, then zeros. -/
def makeCopy (n : Nat) (v : List UInt8) : List UInt8 :=
  v.take n ++ List.replicate (n - v.length) 0

theorem bytesAt_append {pre mid post : List UInt8} {off len : Nat} (hoff : pre.length = off)
    (hlen : mid.length = len) : bytesAt off len (pre ++ mid ++ post) = mid := by
  rw [bytesAt, List.append_assoc, List.drop_left' hoff, List.take_left' hlen]

theorem writeAt_append {pre mid post src : List UInt8} {off : Nat} (hoff : pre.length = off)
    (hlen : mid.length = src.length) : writeAt off src (pre ++ mid ++ post) = pre ++ src ++ post := by
  subst hoff
  have : src.length ≤ (pre ++ mid ++ post).length - pre.length := by simp; omega
  rw [writeAt, List.take_of_length_le this]
  simp only [List.append_assoc, List.take_left' rfl, List.drop_append, ← hlen, List.drop_left' rfl]

@[simp] theorem length_writeAt (off : Nat) (src dst : List UInt8) :
    (writeAt off src dst).length = dst.length := by
  simp only [writeAt, List.length_append, List.length_take, List.length_drop]
  omega

theorem take_writeAt {n off : Nat} (src : List UInt8) {dst : List UInt8} (h : n ≤ off)
    (hd : off ≤ dst.length) :
    (writeAt off src dst).take n = dst.take n := by
  rw [writeAt, List.append_assoc, List.take_append_of_le_length (by simp; omega), List.take_take,
    Nat.min_eq_left h]

theorem makeCopy_of_le {n : Nat} {v : List UInt8} (h : n ≤ v.length) : makeCopy n v = v.take n := by
  simp [makeCopy, Nat.sub_eq_zero_of_le h]

@[simp] theorem length_makeCopy (n : Nat) (v : List UInt8) : (makeCopy n v).length = n := by
  simp only [makeCopy, List.length_append, List.length_take, List.length_replicate]
  omega

/-! ### Conversions between signed and unsigned integers -/

/-- `uintN(i)` of a signed `i`: its two's-complement bits, that is `i` modulo `2 ^ bits`. -/
def toUnsigned (bits : Nat) (i : Int) : Nat := (i % 2 ^ bits).toNat

/-- `intN(u)` of an unsigned `u < 2 ^ bits`: `u`, less `2 ^ bits` when its top bit is set. -/
def toSigned (bits : Nat) (u : Nat) : Int := if u < 2 ^ (bits - 1) then u else u - 2 ^ bits

/-- A value of a signed `bits`-bit type. -/
def InRange (bits : Nat) (i : Int) : Prop := -2 ^ (bits - 1) ≤ i ∧ i < 2 ^ (bits - 1)

instance (bits : Nat) (i : Int) : Decidable (InRange bits i) :=
  inferInstanceAs (Decidable (-2 ^ (bits - 1) ≤ i ∧ i < 2 ^ (bits - 1)))

theorem toUnsigned_lt (bits : Nat) (i : Int) : toUnsigned bits i < 2 ^ bits := by
  have hp : (0 : Int) < 2 ^ bits := by positivity
  have h₁ := Int.toNat_of_nonneg (Int.emod_nonneg i hp.ne')
  have h₂ := Int.emod_lt_of_pos i hp
  unfold toUnsigned
  zify
  omega

/-- **Two's complement round trip**: a signed value of the type's range comes back from its
unsigned bits. -/
theorem toSigned_toUnsigned {bits : Nat} (hb : 0 < bits) {i : Int} (h : InRange bits i) :
    toSigned bits (toUnsigned bits i) = i := by
  obtain ⟨k, rfl⟩ : ∃ k, bits = k + 1 := ⟨bits - 1, by omega⟩
  -- the half range `2 ^ k`, as a natural number and as an integer
  obtain ⟨M, hM⟩ : ∃ M : Nat, 2 ^ k = M := ⟨_, rfl⟩
  have hMi : (2 : Int) ^ k = M := by rw [← hM]; push_cast; rfl
  have hpos : 0 < M := hM ▸ Nat.pos_pow_of_pos k (by decide)
  simp only [InRange, Nat.add_sub_cancel, hMi] at h
  unfold toSigned toUnsigned
  rw [Nat.add_sub_cancel, pow_succ, hM, hMi]
  -- the bits of `i` are `i` or `i + 2 M`
  by_cases hi : 0 ≤ i
  · rw [Int.emod_eq_of_lt hi (by omega), if_pos (by omega)]
    omega
  · rw [← Int.add_mul_emod_self (b := 1), one_mul, Int.emod_eq_of_lt (by omega) (by omega),
      if_neg (by omega)]
    omega

/-! ### Decimal text -/

/-- The ASCII digit for `d < 10`. -/
def digitByte (d : Nat) : UInt8 := UInt8.ofNat (48 + d)

/-- The value of an ASCII digit. -/
def digitValue? (b : UInt8) : Option Nat :=
  if 48 ≤ b.toNat ∧ b.toNat ≤ 57 then some (b.toNat - 48) else none

theorem digitValue?_digitByte {d : Nat} (hd : d < 10) : digitValue? (digitByte d) = some d := by
  have : (digitByte d).toNat = 48 + d := UInt8.toNat_ofNat_of_lt (by change _ < 256; omega)
  simp only [digitValue?, this]
  rw [if_pos (by omega)]
  congr 1
  omega

/-- `strconv.FormatUint(n, 10)`, as `%d` writes a non-negative value: its decimal digits, most
significant first. -/
def formatNat (n : Nat) : GoString :=
  if n = 0 then [48] else (Nat.digits 10 n).reverse.map digitByte

/-- `%d` of a signed value: a minus sign before the digits of a negative one. -/
def formatInt (i : Int) : GoString :=
  if i < 0 then GoString.ofAscii "-" ++ formatNat i.natAbs else formatNat i.toNat

/-- The value of decimal digits, most significant first. -/
def digitsToNat (ds : List Nat) : Nat := ds.foldl (fun n d => n * 10 + d) 0

/-- `strconv.ParseUint(s, 10, 64)` without its range check: every byte a digit, at least
one. -/
def parseNat (s : GoString) : Option Nat :=
  if s = [] then none else (s.mapM digitValue?).map digitsToNat

/-- `strconv.ParseInt(s, 10, 64)`: an optional sign, then digits whose value fits an
`int64`. -/
def parseInt : GoString → Option Int
  | [] => none
  | c :: rest =>
    let (neg, digits) :=
      if c = 43 then (false, rest) else if c = 45 then (true, rest) else (false, c :: rest)
    (parseNat digits).bind fun un =>
      if neg then (if un ≤ 2 ^ 63 then some (-(un : Int)) else none)
      else if un < 2 ^ 63 then some un else none

theorem digitsToNat_reverse (ds : List Nat) : digitsToNat ds.reverse = Nat.ofDigits 10 ds := by
  induction ds with
  | nil => rfl
  | cons d ds ih =>
    rw [List.reverse_cons, digitsToNat, List.foldl_append, ← digitsToNat, ih, Nat.ofDigits_cons]
    simp only [List.foldl_cons, List.foldl_nil]
    ring

theorem mapM_digitValue? (ds : List Nat) (hd : ∀ d ∈ ds, d < 10) :
    (ds.map digitByte).mapM digitValue? = some ds := by
  induction ds with
  | nil => rfl
  | cons d ds ih =>
    simp only [List.map_cons, List.mapM_cons, digitValue?_digitByte (hd d (List.mem_cons_self _ _)),
      ih fun d' h => hd d' (List.mem_cons_of_mem _ h)]
    rfl

/-- Decimal text is digits only: no sign. -/
theorem mem_formatNat {n : Nat} {b : UInt8} (hb : b ∈ formatNat n) : 48 ≤ b.toNat ∧ b.toNat ≤ 57 := by
  unfold formatNat at hb
  split at hb
  · simp only [List.mem_singleton] at hb; subst hb; decide
  · obtain ⟨d, hd, rfl⟩ := List.mem_map.mp hb
    have : d < 10 := Nat.digits_lt_base (by decide) (List.mem_reverse.mp hd)
    rw [digitByte, UInt8.toNat_ofNat_of_lt (by change _ < 256; omega)]
    omega

theorem parseNat_formatNat (n : Nat) : parseNat (formatNat n) = some n := by
  unfold formatNat
  split
  · subst_vars; rfl
  · rename_i hn
    have hd : ∀ d ∈ (Nat.digits 10 n).reverse, d < 10 := fun d h =>
      Nat.digits_lt_base (by decide) (List.mem_reverse.mp h)
    rw [parseNat, if_neg (by simpa using Nat.digits_ne_nil_iff_ne_zero.mpr hn),
      mapM_digitValue? _ hd, Option.map_some',
      digitsToNat_reverse, Nat.ofDigits_digits]

/-- **Decimal round trip**: `strconv.ParseInt` reads back what `%d` wrote of a non-negative
`int64`. -/
theorem parseInt_formatInt {i : Int} (h₀ : 0 ≤ i) (h : i < 2 ^ 63) : parseInt (formatInt i) = some i := by
  have hn : formatInt i = formatNat i.toNat := if_neg (by omega)
  obtain ⟨c, rest, hcr⟩ : ∃ c rest, formatNat i.toNat = c :: rest := by
    unfold formatNat; split
    · exact ⟨_, _, rfl⟩
    · rename_i h0
      cases hd : (Nat.digits 10 i.toNat).reverse with
      | nil => exact absurd (List.reverse_eq_nil_iff.mp hd) (Nat.digits_ne_nil_iff_ne_zero.mpr h0)
      | cons d ds => exact ⟨_, _, rfl⟩
  have hc := mem_formatNat (hcr ▸ List.mem_cons_self c rest)
  have h43 : c ≠ 43 := fun he => absurd (he ▸ hc) (by decide)
  have h45 : c ≠ 45 := fun he => absurd (he ▸ hc) (by decide)
  rw [hn, hcr]
  simp only [parseInt, h43, h45, if_false, ← hcr, parseNat_formatNat, Option.some_bind,
    Bool.false_eq_true]
  rw [if_pos (by omega)]
  congr 1
  omega

end Pod
