import Mathlib

/-!
# Support — Go values

The Go values the handlers read, as Lean data.  A Go `string` is a list of bytes
(`GoString`), so that `s[:n]` counts bytes as Go does; `strings.Split` is `GoString.split`
and `net.JoinHostPort` is `GoString.joinHostPort`.
A `time.Time` is a count of nanoseconds from the Unix epoch, and its zero value is Go's
zero time, 1 January of year 1.  A Go `map` is an `AList`: its keys are distinct, and a
`range` over it visits `entries` in order — where the runtime may choose another order, the
modules that range over a map say so.
-/

namespace Pod

/-- A Go `string`: its bytes. -/
abbrev GoString := List UInt8

/-- The bytes of an ASCII literal. -/
def GoString.ofAscii (s : String) : GoString := s.toList.map fun c => c.toNat.toUInt8

namespace GoString

/-- The text before and after the first occurrence of `sep` (`strings.Index`). -/
def breakOn (sep : GoString) : GoString → Option (GoString × GoString)
  | [] => if sep = [] then some ([], []) else none
  | c :: s =>
    if sep.isPrefixOf (c :: s) then some ([], (c :: s).drop sep.length)
    else (breakOn sep s).map fun p => (c :: p.1, p.2)

theorem breakOn_length {sep s a b : GoString} (hsep : sep ≠ []) (h : breakOn sep s = some (a, b)) :
    b.length < s.length := by
  induction s generalizing a with
  | nil => simp [breakOn, hsep] at h
  | cons c s ih =>
    simp only [breakOn] at h
    split at h
    · cases h
      have : 0 < sep.length := List.length_pos.mpr hsep
      simp only [List.length_drop, List.length_cons]
      omega
    · obtain ⟨⟨a', b'⟩, h', he⟩ := Option.map_eq_some'.mp h
      cases he
      exact Nat.lt_succ_of_lt (ih h')

/-- `strings.Split(s, sep)` for a non-empty `sep`: the pieces between the occurrences of
`sep`, left to right. -/
def split (sep : GoString) (s : GoString) : List GoString :=
  if hsep : sep = [] then [s] else
  match h : breakOn sep s with
  | none => [s]
  | some (a, b) =>
    have := breakOn_length hsep h
    a :: split sep b
termination_by s.length

theorem split_of_breakOn_none {sep s : GoString} (h : breakOn sep s = none) :
    split sep s = [s] := by
  rw [split]; split
  · rfl
  · split <;> simp_all

theorem split_of_breakOn_some {sep s a b : GoString} (hsep : sep ≠ []) (h : breakOn sep s = some (a, b)) :
    split sep s = a :: split sep b := by
  rw [split, dif_neg hsep]; split <;> simp_all

theorem breakOn_single_of_not_mem {c : UInt8} {s : GoString} (h : c ∉ s) :
    breakOn [c] s = none := by
  induction s with
  | nil => simp [breakOn]
  | cons x s ih =>
    have hx : c ≠ x := fun he => h (he ▸ List.mem_cons_self _ _)
    simp [breakOn, List.isPrefixOf, hx, ih (fun hm => h (List.mem_cons_of_mem _ hm))]

theorem breakOn_single_append {c : UInt8} {a b : GoString} (h : c ∉ a) :
    breakOn [c] (a ++ c :: b) = some (a, b) := by
  induction a with
  | nil => simp [breakOn, List.isPrefixOf]
  | cons x a ih =>
    have hx : c ≠ x := fun he => h (he ▸ List.mem_cons_self _ _)
    simp [breakOn, List.isPrefixOf, hx, ih (fun hm => h (List.mem_cons_of_mem _ hm))]

/-- Splitting on a byte that does not occur leaves the text whole. -/
theorem split_single_of_not_mem {c : UInt8} {s : GoString} (h : c ∉ s) : split [c] s = [s] :=
  split_of_breakOn_none (breakOn_single_of_not_mem h)

/-- Splitting on a byte cuts at its first occurrence. -/
theorem split_single_append {c : UInt8} {a b : GoString} (h : c ∉ a) :
    split [c] (a ++ c :: b) = a :: split [c] b :=
  split_of_breakOn_some (List.cons_ne_nil _ _) (breakOn_single_append h)

/-- `s[:n]`: the first `n` bytes, or a run-time panic when `s` is shorter. -/
def sliceTo (s : GoString) (n : Nat) : Option GoString :=
  if n ≤ s.length then some (s.take n) else none

@[simp] theorem sliceTo_eq_none {s : GoString} {n : Nat} : sliceTo s n = none ↔ s.length < n := by
  simp [sliceTo]

/-- `net.JoinHostPort`: a host with a colon is a literal IPv6 address and goes in brackets. -/
def joinHostPort (host port : GoString) : GoString :=
  if (58 : UInt8) ∈ host then ofAscii "[" ++ host ++ ofAscii "]:" ++ port
  else host ++ ofAscii ":" ++ port

theorem joinHostPort_ne_nil (host port : GoString) : joinHostPort host port ≠ [] := by
  unfold joinHostPort; split <;> simp [ofAscii]

end GoString

/-- A `time.Time`: nanoseconds from the Unix epoch. -/
abbrev Time := Int

namespace Time

/-- One second, as a `time.Duration`. -/
def second : Int := 1000000000

/-- The zero `time.Time`, 0001-01-01 00:00:00 UTC. -/
def zero : Time := -62135596800 * second

/-- `t.IsZero()`. -/
def isZero (t : Time) : Bool := t == zero

/-- `t.Unix()`: whole seconds, rounded down. -/
def unix (t : Time) : Int := t / second

end Time

/-- A Go `map[K]V`. -/
abbrev GoMap (K V : Type) [DecidableEq K] := AList fun _ : K => V

namespace GoMap

variable {K V : Type} [DecidableEq K]

/-- `m[k]` in a map of numbers: the zero value when `k` is absent. -/
def getD [Zero V] (m : GoMap K V) (k : K) : V := (m.lookup k).getD 0

/-- `m[k] += d`. -/
def bump (m : GoMap K Int) (k : K) (d : Int) : GoMap K Int := m.insert k (m.getD k + d)

@[simp] theorem getD_bump (m : GoMap K Int) (k k' : K) (d : Int) :
    (m.bump k d).getD k' = m.getD k' + if k' = k then d else 0 := by
  by_cases h : k' = k
  · subst h; simp [bump, getD, AList.lookup_insert]
  · simp [bump, getD, AList.lookup_insert_ne h, h]

/-- `len(m)`. -/
def len (m : GoMap K V) : Nat := m.entries.length

/-- The number of entries whose value satisfies `p`. -/
def countP (p : V → Bool) (m : GoMap K V) : Nat := m.entries.countP fun e => p e.2

theorem countP_insert_of_not_mem (p : V → Bool) {m : GoMap K V} {k : K} (v : V) (h : k ∉ m) :
    countP p (m.insert k v) = countP p m + if p v then 1 else 0 := by
  rw [countP, countP, AList.insert_entries_of_neg h, List.countP_cons]

/-- Deleting a present key takes its entry out of every count. -/
theorem countP_erase_of_lookup (p : V → Bool) {m : GoMap K V} {k : K} {v : V}
    (h : m.lookup k = some v) :
    countP p (m.erase k) + (if p v then 1 else 0) = countP p m := by
  have hk : k ∈ m.entries.keys := AList.mem_keys.mp (AList.lookup_isSome.mp (by simp [h]))
  obtain ⟨v', l₁, l₂, -, he, hke⟩ := List.exists_of_kerase hk
  have hv : v' = v := by
    have hmem : (⟨k, v'⟩ : Sigma fun _ : K => V) ∈ m.entries := by rw [he]; simp
    have := (List.mem_dlookup_iff m.nodupKeys).mpr hmem
    simp only [AList.lookup] at h
    rw [h] at this
    exact (Option.some.inj this).symm
  subst hv
  simp only [countP, AList.erase, hke]
  conv_rhs => rw [he]
  simp [List.countP_append, List.countP_cons]
  omega

theorem len_eq_countP_true (m : GoMap K V) : len m = countP (fun _ => true) m := by
  simp [len, countP]

theorem kerase_eq_filter {l : List (Σ _ : K, V)} (h : l.NodupKeys) (k : K) :
    l.kerase k = l.filter fun e => e.1 != k := by
  induction l with
  | nil => rfl
  | cons e l ih =>
    obtain ⟨he, hl⟩ := List.nodupKeys_cons.mp h
    by_cases hk : k = e.1
    · subst hk
      rw [List.kerase_cons_eq rfl, List.filter_cons]
      simp only [bne_self_eq_false, Bool.false_eq_true, if_false]
      refine (List.filter_eq_self.mpr fun e' he' => ?_).symm
      simp only [bne_iff_ne, ne_eq]
      intro h
      exact he (h ▸ List.mem_keys_of_mem he')
    · have hne : (e.1 != k) = true := bne_iff_ne.mpr (Ne.symm hk)
      rw [List.kerase_cons_ne hk, List.filter_cons, if_pos hne, ih hl]

/-- `delete(m, k)` keeps the other entries, in their order. -/
theorem entries_erase (m : GoMap K V) (k : K) :
    (m.erase k).entries = m.entries.filter fun e => e.1 != k :=
  kerase_eq_filter m.nodupKeys k

end GoMap

end Pod
