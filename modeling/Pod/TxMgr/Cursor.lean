import Pod.TxMgr.Credit

/-!
# Wallet transaction store — the cursor

The store's buckets are read through cursors, which walk a bucket's keys in byte order:
`Seek(k)` stops at the first key not below `k`, `Next` and `Prev` step along.  The cursor itself
belongs to the database (bbolt), which this repository does not hold; it is modelled as the
bucket's entries sorted by key (`cursorEntries`), and `Seek` as dropping the keys below its
argument (`seek`).  Keys compare by `List.Lex (· < ·)`, which is `bytes.Compare`.

The iterators of `db.go` seek a prefix and read entries while their keys start with it
(`prefixLoop`); what they are for is reading every entry under the prefix, in order, up to the
first one that does not decode (`readAll`).

* `prefix_run_contiguous`: above a prefix, a key without the prefix sorts after every key
  with it, so the keys under a prefix are contiguous.
* `cursorEntries_sorted`, `mem_cursorEntries`: the cursor walks every entry once, keys strictly
  increasing.
* `prefixLoop_seek`: a prefix iterator reads exactly the entries under its prefix, in key order.
* `seek_eq_filter`: on sorted entries, `Seek(k)` keeps exactly the entries not below `k`.
* `lookup_foldl_insert`: after `Put`s of distinct keys, a key holds the value put there last, or
  what it held before.
* `prefixLoop_written`: entries written under a fresh prefix are read back once each, in key order.
-/

namespace Pod

/-! ### Byte order on keys -/

theorem uint8_lt_trichotomy (a b : UInt8) : a < b ∨ a = b ∨ b < a := by
  rcases Nat.lt_trichotomy a.toNat b.toNat with h | h | h
  · exact .inl (uint8_lt_iff.mpr h)
  · exact .inr (.inl (UInt8.toNat.inj h))
  · exact .inr (.inr (uint8_lt_iff.mpr h))

theorem lex_irrefl : ∀ k : List UInt8, ¬ List.Lex (· < ·) k k
  | _ :: k, .cons h => lex_irrefl k h
  | _ :: _, .rel h => Nat.lt_irrefl _ (uint8_lt_iff.mp h)

theorem lex_trans : ∀ {a b c : List UInt8}, List.Lex (· < ·) a b → List.Lex (· < ·) b c →
    List.Lex (· < ·) a c
  | _, _, _, .nil, h => by cases h <;> exact .nil
  | _, _, _, .cons h₁, .cons h₂ => .cons (lex_trans h₁ h₂)
  | _, _, _, .cons _, .rel h₂ => .rel h₂
  | _, _, _, .rel h₁, .cons _ => .rel h₁
  | _, _, _, .rel h₁, .rel h₂ =>
    .rel (uint8_lt_iff.mpr (Nat.lt_trans (uint8_lt_iff.mp h₁) (uint8_lt_iff.mp h₂)))

theorem lex_asymm {a b : List UInt8} (h : List.Lex (· < ·) a b) : ¬ List.Lex (· < ·) b a :=
  fun h' => lex_irrefl a (lex_trans h h')

theorem lex_trichotomy : ∀ a b : List UInt8,
    List.Lex (· < ·) a b ∨ a = b ∨ List.Lex (· < ·) b a
  | [], [] => .inr (.inl rfl)
  | [], _ :: _ => .inl .nil
  | _ :: _, [] => .inr (.inr .nil)
  | x :: a, y :: b => by
    rcases uint8_lt_trichotomy x y with h | rfl | h
    · exact .inl (.rel h)
    · exact (lex_trichotomy a b).imp .cons (.imp (congrArg _) .cons)
    · exact .inr (.inr (.rel h))

/-- A key that starts with `p` does not sort below `p`. -/
theorem prefix_key_not_below : ∀ {p k : List UInt8}, p <+: k → ¬ List.Lex (· < ·) k p
  | [], _, _, h => by cases h
  | a :: p, _, ⟨t, rfl⟩, .cons h => prefix_key_not_below ⟨t, rfl⟩ h
  | a :: p, _, ⟨t, rfl⟩, .rel h => lex_irrefl [a] (.rel h)

/-- **Prefix ranges are contiguous**: above `p`, a key that does not start with `p` sorts after
every key that does. -/
theorem prefix_run_contiguous : ∀ {p k k' : List UInt8}, List.Lex (· < ·) p k →
    ¬ p <+: k → p <+: k' → List.Lex (· < ·) k' k
  | _, _, _, .nil, hk, _ => absurd List.nil_prefix hk
  | _, _, _, .cons h, hk, ⟨t, rfl⟩ => .cons (prefix_run_contiguous h
      (fun hp => hk (List.prefix_cons_inj _ |>.mpr hp)) ⟨t, rfl⟩)
  | _, _, _, .rel h, _, ⟨t, rfl⟩ => .rel h

theorem lex_append_of_lex {a a' : List UInt8} (t t' : List UInt8) (h : List.Lex (· < ·) a a')
    (hl : a.length = a'.length) : List.Lex (· < ·) (a ++ t) (a' ++ t') := by
  induction h with
  | nil => exact absurd hl (by simp)
  | cons _ ih => exact .cons (ih (Nat.succ.inj hl))
  | rel h => exact .rel h

/-! ### The cursor -/

namespace TxMgr

/-- A bucket entry as a cursor returns it. -/
abbrev Entry := List UInt8 × List UInt8

/-- Cursor order on entries: `x` may come before `y` unless `y`'s key is below `x`'s. -/
def KeyLe (x y : Entry) : Prop := ¬ List.Lex (· < ·) y.1 x.1

instance : DecidableRel KeyLe := fun _ _ => inferInstanceAs (Decidable (¬ _))

instance : IsTotal Entry KeyLe :=
  ⟨fun x y => (em (List.Lex (· < ·) y.1 x.1)).elim (fun h => .inr (lex_asymm h)) .inl⟩

instance : IsTrans Entry KeyLe :=
  ⟨fun x y z hxy hyz hzx => by
    rcases lex_trichotomy y.1 z.1 with h | h | h
    · exact hxy (lex_trans h hzx)
    · exact hxy (h ▸ hzx)
    · exact hyz h⟩

/-- What a cursor walks: the bucket's entries in key order. -/
def cursorEntries (b : Bucket) : List Entry :=
  (b.entries.map fun e => (e.1, e.2)).insertionSort KeyLe

theorem mem_cursorEntries {b : Bucket} {k v : List UInt8} :
    (k, v) ∈ cursorEntries b ↔ b.lookup k = some v := by
  rw [cursorEntries, (List.perm_insertionSort _ _).mem_iff, AList.lookup, Option.mem_def.symm,
    List.mem_dlookup_iff b.nodupKeys, List.mem_map]
  exact ⟨fun ⟨_, he, hkv⟩ => by cases hkv; exact he, fun he => ⟨_, he, rfl⟩⟩

/-- **The cursor's order**: keys strictly increase along `cursorEntries`. -/
theorem cursorEntries_sorted (b : Bucket) :
    (cursorEntries b).Pairwise fun x y => List.Lex (· < ·) x.1 y.1 := by
  have hne : (cursorEntries b).Pairwise fun x y => x.1 ≠ y.1 := by
    refine List.pairwise_map.mp (((List.perm_insertionSort _ _).map Prod.fst).nodup_iff.mpr ?_)
    rw [List.map_map]
    exact b.nodupKeys
  exact ((List.sorted_insertionSort KeyLe _).and hne).imp fun ⟨h₁, h₂⟩ =>
    (lex_trichotomy _ _).resolve_right (not_or.mpr ⟨h₂, h₁⟩)

theorem nodup_of_sorted {es : List Entry} (hs : es.Pairwise fun x y => List.Lex (· < ·) x.1 y.1) :
    es.Nodup :=
  hs.imp fun {x y} (h : List.Lex (· < ·) x.1 y.1) (he : x = y) => lex_irrefl x.1 (he ▸ h)

/-- `c.Seek(k)`: the cursor from the first key not below `k` on. -/
def seek (es : List Entry) (k : List UInt8) : List Entry :=
  es.dropWhile fun e => decide (List.Lex (· < ·) e.1 k)

/-- What a prefix iterator is for: the entries decoded in order, up to the first that does not
decode, whose error is returned. -/
def readAll (readElem : List UInt8 → List UInt8 → Except StoreError α) :
    List Entry → List α × Option StoreError
  | [] => ([], none)
  | (k, v) :: rest =>
    match readElem k v with
    | .error err => ([], some err)
    | .ok elem => ((elem :: (readAll readElem rest).1), (readAll readElem rest).2)

/-- The `for it.next()` loop of `creditIterator`, `debitIterator` and `unminedCreditIterator`
once `Seek(prefix)` has placed the cursor: a key without the prefix ends the loop, and a key with
it is decoded by `readElem`, whose first error ends the loop with `it.err` set.  At the cursor's
end the key is `nil`, which has the prefix only when the prefix is empty; `readElem` then reads
the empty key, where each of the store's readers fails (one that did not would make the next
call seek again, which is not followed here). -/
def prefixLoop (readElem : List UInt8 → List UInt8 → Except StoreError α) (pfx : List UInt8) :
    List Entry → List α × Option StoreError
  | [] =>
    if pfx.isPrefixOf [] then
      match readElem [] [] with
      | .error err => ([], some err)
      | .ok _ => ([], none)
    else ([], none)
  | (ck, cv) :: rest =>
    if pfx.isPrefixOf ck then
      match readElem ck cv with
      | .error err => ([], some err)
      | .ok elem => ((elem :: (prefixLoop readElem pfx rest).1), (prefixLoop readElem pfx rest).2)
    else ([], none)

variable {α : Type} {readElem : List UInt8 → List UInt8 → Except StoreError α}

theorem seek_sublist (es : List Entry) (k : List UInt8) : (seek es k).Sublist es :=
  (List.dropWhile_suffix _).sublist

theorem not_lex_of_mem_seek {es : List Entry} {k : List UInt8}
    (hs : es.Pairwise fun x y => List.Lex (· < ·) x.1 y.1) :
    ∀ e ∈ seek es k, ¬ List.Lex (· < ·) e.1 k := by
  induction es with
  | nil => simp [seek]
  | cons x xs ih =>
    by_cases hx : List.Lex (· < ·) x.1 k
    · simp only [seek, List.dropWhile_cons, hx, decide_True, ↓reduceIte]
      exact ih hs.of_cons
    · simp only [seek, List.dropWhile_cons, hx, decide_False, Bool.false_eq_true, ↓reduceIte,
        List.forall_mem_cons]
      exact ⟨not_false, fun e he hek => hx (lex_trans (List.rel_of_pairwise_cons hs he) hek)⟩

theorem filter_seek {es : List Entry} {pfx : List UInt8} :
    es.filter (fun e => pfx.isPrefixOf e.1) = (seek es pfx).filter (fun e => pfx.isPrefixOf e.1) := by
  conv_lhs => rw [← List.takeWhile_append_dropWhile (fun e => decide (List.Lex (· < ·) e.1 pfx)) es]
  rw [List.filter_append, List.filter_eq_nil_iff.mpr, List.nil_append, seek]
  intro e he hp
  have := List.mem_takeWhile_imp he
  simp only [decide_eq_true_eq] at this
  exact prefix_key_not_below (List.isPrefixOf_iff_prefix.mp hp) this

/-- Above `pfx`, the keys that start with `pfx` come first: taking entries while they have the
prefix takes every entry that has it. -/
theorem takeWhile_prefix_eq_filter {pfx : List UInt8} :
    ∀ {es : List Entry}, es.Pairwise (fun x y => List.Lex (· < ·) x.1 y.1) →
    (∀ e ∈ es, ¬ List.Lex (· < ·) e.1 pfx) →
    es.takeWhile (fun e => pfx.isPrefixOf e.1) = es.filter fun e => pfx.isPrefixOf e.1
  | [], _, _ => rfl
  | (k, v) :: rest, hs, hle => by
    by_cases hk : pfx.isPrefixOf k
    · simp only [List.takeWhile_cons, List.filter_cons, hk, ↓reduceIte,
        takeWhile_prefix_eq_filter hs.of_cons fun e he => hle e (List.mem_cons_of_mem _ he)]
    · have hlt : List.Lex (· < ·) pfx k := by
        rcases lex_trichotomy pfx k with h | rfl | h
        · exact h
        · exact absurd (List.isPrefixOf_iff_prefix.mpr (List.prefix_refl _)) hk
        · exact absurd h (hle _ (List.mem_cons_self _ _))
      have hnil : rest.filter (fun e => pfx.isPrefixOf e.1) = [] :=
        List.filter_eq_nil_iff.mpr fun e he hpe => lex_asymm (List.rel_of_pairwise_cons hs he)
          (prefix_run_contiguous hlt (fun h => hk (List.isPrefixOf_iff_prefix.mpr h))
            (List.isPrefixOf_iff_prefix.mp hpe))
      simp only [List.takeWhile_cons, List.filter_cons, hk, hnil, Bool.false_eq_true, ↓reduceIte]

/-- The loop reads the entries while their keys start with `pfx`. -/
theorem prefixLoop_eq_takeWhile {pfx : List UInt8} (hp : pfx ≠ []) :
    ∀ es : List Entry,
    prefixLoop readElem pfx es = readAll readElem (es.takeWhile fun e => pfx.isPrefixOf e.1)
  | [] => by
    obtain ⟨a, p, rfl⟩ := List.exists_cons_of_ne_nil hp
    rfl
  | (k, v) :: rest => by
    by_cases hk : pfx.isPrefixOf k
    · simp only [prefixLoop, List.takeWhile_cons, hk, ↓reduceIte, readAll,
        prefixLoop_eq_takeWhile hp rest]
    · simp only [prefixLoop, List.takeWhile_cons, hk, Bool.false_eq_true, ↓reduceIte, readAll]

/-- **A prefix iterator reads exactly the entries under its prefix**, in key order. -/
theorem prefixLoop_seek {pfx : List UInt8} (hp : pfx ≠ []) {es : List Entry}
    (hs : es.Pairwise fun x y => List.Lex (· < ·) x.1 y.1) :
    prefixLoop readElem pfx (seek es pfx) = readAll readElem (es.filter fun e => pfx.isPrefixOf e.1) := by
  rw [filter_seek, prefixLoop_eq_takeWhile hp,
    takeWhile_prefix_eq_filter (hs.sublist (seek_sublist es pfx)) (not_lex_of_mem_seek hs)]

theorem readAll_of_ok :
    ∀ {es : List Entry}, (∀ e ∈ es, ∃ a, readElem e.1 e.2 = .ok a) →
    readAll readElem es = (es.filterMap fun e => (readElem e.1 e.2).toOption, none)
  | [], _ => rfl
  | (k, v) :: rest, h => by
    obtain ⟨a, ha⟩ := h (k, v) (List.mem_cons_self _ _)
    simp only [readAll, ha, List.filterMap_cons, Except.toOption,
      readAll_of_ok fun e he => h e (List.mem_cons_of_mem _ he)]

/-- On sorted entries, seeking `k` keeps exactly the entries not below `k`. -/
theorem seek_eq_filter {k : List UInt8} :
    ∀ {es : List Entry}, es.Pairwise (fun x y => List.Lex (· < ·) x.1 y.1) →
    seek es k = es.filter fun e => !decide (List.Lex (· < ·) e.1 k)
  | [], _ => rfl
  | x :: xs, hs => by
    by_cases hx : List.Lex (· < ·) x.1 k
    · simp only [seek, List.dropWhile_cons, List.filter_cons, hx, decide_True, ↓reduceIte,
        Bool.not_true, Bool.false_eq_true]
      exact seek_eq_filter hs.of_cons
    · have hall : xs.filter (fun e => !decide (List.Lex (· < ·) e.1 k)) = xs :=
        List.filter_eq_self.mpr fun e he => by
          simpa using fun hek => hx (lex_trans (List.rel_of_pairwise_cons hs he) hek)
      simp only [seek, List.dropWhile_cons, List.filter_cons, hx, decide_False, hall,
        Bool.not_false, Bool.false_eq_true, ↓reduceIte]

/-! ### Puts -/

/-- After a run of `Put`s of distinct keys, a key holds the value last put there, or what it held
before when none was put. -/
theorem lookup_foldl_insert {β : Type} (entry : β → Entry) :
    ∀ (cs : List β) (b : Bucket), (cs.map fun c => (entry c).1).Nodup → ∀ k v,
    (cs.foldl (fun b c => b.insert (entry c).1 (entry c).2) b).lookup k = some v ↔
      (k, v) ∈ cs.map entry ∨ (k ∉ cs.map (fun c => (entry c).1) ∧ b.lookup k = some v)
  | [], b, _, k, v => by simp
  | c :: cs, b, hnd, k, v => by
    rw [List.map_cons, List.nodup_cons] at hnd
    rw [List.foldl_cons, lookup_foldl_insert entry cs _ hnd.2]
    by_cases hk : k = (entry c).1
    · subst hk
      have hnot : (entry c).1 ∉ cs.map fun c => (entry c).1 := hnd.1
      have hnot' : (entry c).1 ∉ (cs.map entry).map Prod.fst := by rwa [List.map_map]
      simp only [List.map_cons, List.mem_cons, AList.lookup_insert, Option.some.injEq, hnot,
        not_true_eq_false, false_and, or_false, true_or, not_false_eq_true, true_and]
      constructor
      · rintro (h | h)
        · exact absurd (List.mem_map_of_mem Prod.fst h) hnot'
        · exact .inl (by rw [← h])
      · rintro (h | h)
        · exact .inr (congrArg Prod.snd h).symm
        · exact absurd (List.mem_map_of_mem Prod.fst h) hnot'
    · simp only [List.map_cons, List.mem_cons, AList.lookup_insert_ne hk, hk, false_or,
        not_false_eq_true, true_and]
      constructor
      · rintro (h | h)
        · exact .inl (.inr h)
        · exact .inr h
      · rintro ((h | h) | h)
        · exact absurd (congrArg Prod.fst h) hk
        · exact .inl h
        · exact .inr h

/-- **Written records are iterated back**: `Put` a run of entries with distinct keys under a
non-empty prefix into a bucket that holds nothing under it; when each entry decodes to its record,
the prefix loop reads every record once, with no error, ordered as the keys are. -/
theorem prefixLoop_written {β : Type} {pfx : List UInt8} (hp : pfx ≠ []) (entry : β → Entry)
    (record : β → α) (R : α → α → Prop) (b : Bucket) (cs : List β)
    (hnd : (cs.map fun c => (entry c).1).Nodup) (hpfx : ∀ c ∈ cs, pfx <+: (entry c).1)
    (hfresh : ∀ k ∈ b.keys, ¬ pfx <+: k)
    (hdec : ∀ c ∈ cs, readElem (entry c).1 (entry c).2 = .ok (record c))
    (hord : ∀ c ∈ cs, ∀ c' ∈ cs,
      List.Lex (· < ·) (entry c).1 (entry c').1 → R (record c) (record c')) :
    ∃ recs, prefixLoop readElem pfx
        (seek (cursorEntries (cs.foldl (fun b c => b.insert (entry c).1 (entry c).2) b)) pfx) =
          (recs, none) ∧ recs.Perm (cs.map record) ∧ recs.Pairwise R := by
  set L := (cursorEntries (cs.foldl (fun b c => b.insert (entry c).1 (entry c).2) b)).filter
    fun e => pfx.isPrefixOf e.1 with hL
  have hsL : L.Pairwise fun x y => List.Lex (· < ·) x.1 y.1 := (cursorEntries_sorted _).filter _
  -- the entries under the prefix are the ones written
  have hmem : ∀ e, e ∈ L ↔ e ∈ cs.map entry := fun ⟨k, v⟩ => by
    rw [hL, List.mem_filter, mem_cursorEntries, lookup_foldl_insert _ cs b hnd,
      List.isPrefixOf_iff_prefix]
    constructor
    · rintro ⟨h | ⟨-, h⟩, hk⟩
      · exact h
      · exact absurd hk (hfresh k (AList.mem_keys.mpr (AList.lookup_isSome.mp (by rw [h]; rfl))))
    · intro h
      obtain ⟨c, hc, he⟩ := List.mem_map.mp h
      exact ⟨.inl h, he ▸ hpfx c hc⟩
  have hperm : L.Perm (cs.map entry) :=
    (List.perm_ext_iff_of_nodup (nodup_of_sorted hsL)
      (List.Nodup.of_map Prod.fst (by rwa [List.map_map]))).mpr hmem
  have hdec' : ∀ c ∈ cs, (readElem (entry c).1 (entry c).2).toOption = some (record c) :=
    fun c hc => by rw [hdec c hc]; rfl
  have hok : ∀ e ∈ L, ∃ a, readElem e.1 e.2 = .ok a := fun e he => by
    obtain ⟨c, hc, rfl⟩ := List.mem_map.mp ((hmem e).mp he)
    exact ⟨_, hdec c hc⟩
  refine ⟨_, (prefixLoop_seek hp (cursorEntries_sorted _)).trans (readAll_of_ok hok), ?_, ?_⟩
  · refine (hperm.filterMap _).trans ?_
    rw [List.filterMap_map]
    exact (List.filterMap_eq_map_iff_forall_eq_some.mpr hdec') ▸ List.Perm.refl _
  · refine List.pairwise_filterMap.mpr (hsL.imp_of_mem fun he he' hlt r hr r' hr' => ?_)
    obtain ⟨c, hc, rfl⟩ := List.mem_map.mp ((hmem _).mp he)
    obtain ⟨c', hc', rfl⟩ := List.mem_map.mp ((hmem _).mp he')
    rw [hdec' c hc, Option.mem_def, Option.some.injEq] at hr
    rw [hdec' c' hc', Option.mem_def, Option.some.injEq] at hr'
    subst hr hr'
    exact hord c hc c' hc' hlt

end TxMgr
end Pod
