import Pod.Support.Slice

/-!
# Node — the `cfcheckpt` cache

`OnGetCFCheckpt` answers a `getcfcheckpt` request with the committed filter headers of the
blocks at each `CFCheckptInterval` boundary of the main chain up to the stop hash, which
`IntervalBlockHashes` lists.  It keeps them in `CFCheckptCaches`, a slice for the regular
filter type that it grows with zero entries when a request needs more.  To find how much of the
cache still lies on the current chain it compares hashes from the request's end backward and
stops at the first match (`findForkIdx`); it serves the entries before that point from the
cache, and fetches, and writes back when the cache grew, the others.

A match says that the cache agrees with the request at every entry before it only when the
cache holds the checkpoints of one chain (`CacheOk`).  A request that grows the cache writes
the headers it fetches as it goes.  When `append` reused the stored slice's capacity, those
writes land in the stored cache's array too, and an empty filter header from the index then
ends the request with the stored cache half rewritten.

* `onGetCFCheckpt_isSome`: a request answered as the environment allows never panics.
* `CacheOk.reply`: a reply from a cache of one chain lists the committed filter header of each
  block the request covers.
* `onGetCFCheckpt_sent_cache`: such a reply leaves the request's chain in the cache when the
  request grew it, and the cache as it was otherwise: only a request that grows the cache
  repairs a reorganisation below its length (`cfCheckpt_cache_keeps_fork`).
* `CacheOk.step`: a request keeps the cache one chain's, unless it grew the cache in place and
  the index left a header empty.
* `CfReachable.sent_ok`: when the index answers every hash it answers at all, every reply of
  every run is right.
* `cfCheckpt_serves_other_chain`: once a request has half rewritten the cache so, a request on
  the chain the cache held is answered with a header of the other chain.
-/

namespace Pod.Node

open Pod

/-! ### The handler -/

/-- `chainhash.HashSize`. -/
def hashSize : Nat := 32

/-- A `chainhash.Hash`: `HashSize` bytes. -/
abbrev ChainHash := { b : List UInt8 // b.length = hashSize }

/-- The zero hash. -/
def zeroHash : ChainHash := ⟨List.replicate hashSize 0, List.length_replicate _ _⟩

/-- `chainhash.NewHash`: the bytes as a hash, or an error unless there are `HashSize` of them. -/
def newHash (b : List UInt8) : Option ChainHash :=
  if h : b.length = hashSize then some ⟨b, h⟩ else none

@[simp] theorem newHash_val (h : ChainHash) : newHash h.val = some h := by
  simp [newHash, h.property]

/-- A `CFHeaderKV`: a block hash and the filter header cached for it. -/
structure CFHeaderKV where
  blockHash : ChainHash
  filterHeader : ChainHash
  deriving DecidableEq

/-- The zero `CFHeaderKV`, as `make` fills a new slice. -/
def CFHeaderKV.zero : CFHeaderKV := ⟨zeroHash, zeroHash⟩

/-- The size of a `CFHeaderKV`: two hashes. -/
def cfHeaderKVSize : Nat := 2 * hashSize

/-- `wire.GCSFilterRegular`. -/
def gcsFilterRegular : UInt8 := 0

/-- A `getcfcheckpt` message. -/
structure MsgGetCFCheckpt where
  filterType : UInt8
  stopHash : ChainHash

/-- A `cfcheckpt` message. -/
structure MsgCFCheckpt where
  filterType : UInt8
  stopHash : ChainHash
  filterHeaders : List ChainHash

/-- `MsgCFCheckpt.AddCFHeader` on a message that `NewMsgCFCheckpt` made for `headersCount`
headers: an error, and the header left out, once the headers fill that capacity. -/
def addCFHeader (headersCount : Nat) (headers : List ChainHash) (header : ChainHash) :
    List ChainHash :=
  if headers.length = headersCount then headers else headers ++ [header]

/-- The backward search for the fork point from `k`: the largest `k' ≤ k` whose cache entry
`k' - 1` holds the block hash at `k' - 1`, or `0`.  The cache has at least as many entries as
there are block hashes. -/
def findForkIdx (cache : List CFHeaderKV) (blockHashes : List ChainHash) : Nat → Nat
  | 0 => 0
  | k + 1 =>
    if cache[k]?.map (·.blockHash) = blockHashes[k]? then k + 1
    else findForkIdx cache blockHashes k

/-- The loop over the filter headers fetched for the block hashes from `forkIdx` on, from the
`i`-th: each is added to the message and, when the cache is updated, written at `forkIdx + i`;
an empty or malformed header ends the handler.  The cache and the message's headers, and
whether the loop ran to its end; `none` is a run-time panic. -/
def addFilterHeaders (blockHashes : List ChainHash) (forkIdx headersCount : Nat)
    (updateCache : Bool) :
    List (List UInt8) → Nat → GoSlice CFHeaderKV → List ChainHash →
      Option (GoSlice CFHeaderKV × List ChainHash × Bool)
  | [], _, checkptCache, headers => some (checkptCache, headers, true)
  | filterHeaderBytes :: rest, i, checkptCache, headers =>
    if filterHeaderBytes.length = 0 then
      -- the warning reads `blockHashPtrs[i]`
      if forkIdx + i < blockHashes.length then some (checkptCache, headers, false) else none
    else match newHash filterHeaderBytes with
    | none => some (checkptCache, headers, false)
    | some filterHeader =>
      let headers := addCFHeader headersCount headers filterHeader
      if updateCache then
        match blockHashes[forkIdx + i]? with
        | none => none
        | some blockHash =>
          (checkptCache.set (forkIdx + i) ⟨blockHash, filterHeader⟩).bind fun checkptCache =>
            addFilterHeaders blockHashes forkIdx headersCount updateCache rest (i + 1)
              checkptCache headers
      else
        addFilterHeaders blockHashes forkIdx headersCount updateCache rest (i + 1) checkptCache
          headers

/-- A `getcfcheckpt` request and what the node's components answer during it: whether the sync
manager is current, `IntervalBlockHashes` for the stop hash, and `FilterHeadersByBlockHashes`
for the hashes it is asked about. -/
structure CfRequest where
  isCurrent : Bool
  msg : MsgGetCFCheckpt
  intervalBlockHashes : Except String (List ChainHash)
  filterHeadersByBlockHashes : List ChainHash → Except String (List (List UInt8))

/-- `OnGetCFCheckpt`: the regular filter type's cache after the request, and the message
queued, if any; `none` is a run-time panic.  When the cache grows in place, the stored cache
shares the array written and sees the writes made before an early return. -/
def onGetCFCheckpt (r : CfRequest) (cache : GoSlice CFHeaderKV) :
    Option (GoSlice CFHeaderKV × Option MsgCFCheckpt) :=
  if !r.isCurrent then some (cache, none)
  else if r.msg.filterType ≠ gcsFilterRegular then some (cache, none)
  else match r.intervalBlockHashes with
  | .error _ => some (cache, none)
  | .ok blockHashes =>
    let n := blockHashes.length
    let updateCache := decide (cache.elems.length < n)
    let grown := cache.append cfHeaderKVSize (List.replicate (n - cache.elems.length) .zero)
    let checkptCache := if updateCache then grown.1 else cache
    let forkIdx := findForkIdx checkptCache.elems blockHashes n
    let headers := (checkptCache.elems.take forkIdx).foldl
      (fun headers kv => addCFHeader n headers kv.filterHeader) []
    match r.filterHeadersByBlockHashes (blockHashes.drop forkIdx) with
    | .error _ => some (cache, none)
    | .ok filterHeaders =>
      (addFilterHeaders blockHashes forkIdx n updateCache filterHeaders 0 checkptCache
          headers).map fun (checkptCache, headers, done) =>
        if done then
          (if updateCache then checkptCache else cache,
            some ⟨r.msg.filterType, r.msg.stopHash, headers⟩)
        else (if updateCache && grown.2 then checkptCache.sharedWith cache else cache, none)

/-! ### What the request's environment promises -/

/-- The checkpoint blocks of one chain: those before each are what `ancestors` gives for its
hash, as a block hash determines its ancestors, and none has the zero hash. -/
def OnChain (ancestors : ChainHash → List ChainHash) (hashes : List ChainHash) : Prop :=
  ∀ i (h : i < hashes.length), ancestors hashes[i] = hashes.take i ∧ hashes[i] ≠ zeroHash

instance (ancestors : ChainHash → List ChainHash) (hashes : List ChainHash) :
    Decidable (OnChain ancestors hashes) :=
  inferInstanceAs (Decidable (∀ i (h : i < hashes.length),
    ancestors hashes[i] = hashes.take i ∧ hashes[i] ≠ zeroHash))

/-- An answer of `FilterHeadersByBlockHashes` for `ptrs`: an entry for each, empty or the bytes
of its committed filter header. -/
def IndexAnswer (filterHeader : ChainHash → ChainHash) (ptrs : List ChainHash)
    (answer : List (List UInt8)) : Prop :=
  List.Forall₂ (fun p b => b = [] ∨ b = (filterHeader p).val) ptrs answer

variable {ancestors : ChainHash → List ChainHash} {filterHeader : ChainHash → ChainHash}

/-- A request answered as the environment allows: `IntervalBlockHashes` lists the checkpoints of
a chain, and the index answers as `IndexAnswer` says. -/
structure CfRequest.Ok (ancestors : ChainHash → List ChainHash)
    (filterHeader : ChainHash → ChainHash) (r : CfRequest) : Prop where
  onChain : ∀ bh, r.intervalBlockHashes = .ok bh → OnChain ancestors bh
  index : ∀ ptrs answer, r.filterHeadersByBlockHashes ptrs = .ok answer →
    IndexAnswer filterHeader ptrs answer

/-- The index leaves no header of an answer empty. -/
def CfRequest.Complete (r : CfRequest) : Prop :=
  ∀ ptrs answer, r.filterHeadersByBlockHashes ptrs = .ok answer → [] ∉ answer

/-- The cache holds the checkpoints of one chain, each with its committed filter header. -/
def CacheOk (ancestors : ChainHash → List ChainHash) (filterHeader : ChainHash → ChainHash)
    (cache : List CFHeaderKV) : Prop :=
  OnChain ancestors (cache.map (·.blockHash)) ∧
    ∀ kv ∈ cache, kv.filterHeader = filterHeader kv.blockHash

/-- Two chains that share a checkpoint share every checkpoint up to it. -/
theorem OnChain.take_eq {l₁ l₂ : List ChainHash} (h₁ : OnChain ancestors l₁)
    (h₂ : OnChain ancestors l₂) {k : Nat} (hk₁ : k < l₁.length) (hk₂ : k < l₂.length)
    (he : l₁[k] = l₂[k]) : l₁.take (k + 1) = l₂.take (k + 1) := by
  rw [List.take_succ, List.take_succ, List.getElem?_eq_getElem hk₁, List.getElem?_eq_getElem hk₂,
    ← (h₁ k hk₁).1, ← (h₂ k hk₂).1, he]

/-! ### The fork search and the loops -/

theorem findForkIdx_cases (cache : List CFHeaderKV) (blockHashes : List ChainHash) :
    ∀ k, findForkIdx cache blockHashes k = 0 ∨ ∃ j < k, findForkIdx cache blockHashes k = j + 1 ∧
      cache[j]?.map (·.blockHash) = blockHashes[j]?
  | 0 => .inl rfl
  | k + 1 => by
    unfold findForkIdx
    split
    · exact .inr ⟨k, k.lt_succ_self, rfl, ‹_›⟩
    · rcases findForkIdx_cases cache blockHashes k with h | ⟨j, hj, h, hm⟩
      · exact .inl h
      · exact .inr ⟨j, by omega, h, hm⟩

theorem findForkIdx_le (cache : List CFHeaderKV) (blockHashes : List ChainHash) (k : Nat) :
    findForkIdx cache blockHashes k ≤ k := by
  rcases findForkIdx_cases cache blockHashes k with h | ⟨j, hj, h, -⟩ <;> omega

/-- The fork search over a cache of one chain, extended with zero entries, stops within the
cache, at a point up to which the cache and the request's chain agree. -/
theorem take_findForkIdx {cache : List CFHeaderKV} {bh : List ChainHash}
    (hc : CacheOk ancestors filterHeader cache) (hb : OnChain ancestors bh) (m : Nat) :
    (cache ++ List.replicate m CFHeaderKV.zero).take (findForkIdx (cache ++ List.replicate m CFHeaderKV.zero) bh
        bh.length) = cache.take (findForkIdx (cache ++ List.replicate m CFHeaderKV.zero) bh bh.length) ∧
      (cache.take (findForkIdx (cache ++ List.replicate m CFHeaderKV.zero) bh bh.length)).map
        (·.blockHash) = bh.take (findForkIdx (cache ++ List.replicate m CFHeaderKV.zero) bh bh.length) := by
  rcases findForkIdx_cases (cache ++ List.replicate m CFHeaderKV.zero) bh bh.length with h | ⟨j, hj, h, hm⟩
  · simp [h]
  · rw [h]
    have hjc : j < cache.length := by
      by_contra hn
      rw [List.getElem?_append_right (by omega), List.getElem?_replicate,
        List.getElem?_eq_getElem hj] at hm
      split at hm
      · exact (hb j hj).2 (Option.some.inj hm).symm
      · cases hm
    rw [List.getElem?_append_left hjc, List.getElem?_eq_getElem hjc, List.getElem?_eq_getElem hj,
      Option.map_some', Option.some.injEq] at hm
    refine ⟨List.take_append_of_le_length hjc, ?_⟩
    rw [List.map_take]
    exact OnChain.take_eq hc.1 hb (by simpa using hjc) hj (by simpa using hm)

/-- The cached headers added to a message with room for them. -/
theorem foldl_addCFHeader {n : Nat} : ∀ (l : List CFHeaderKV) (headers : List ChainHash),
    headers.length + l.length ≤ n →
      l.foldl (fun headers kv => addCFHeader n headers kv.filterHeader) headers =
        headers ++ l.map (·.filterHeader)
  | [], _, _ => by simp
  | kv :: l, headers, h => by
    simp only [List.length_cons] at h
    rw [List.foldl_cons, addCFHeader, if_neg (by omega), foldl_addCFHeader l _ (by simp; omega)]
    simp

/-- **The loop over an answer of the index**: it does not panic; run to its end, it has added
the committed header of every hash fetched and, updating the cache, written each with its
hash; stopped early, the answer had an empty header. -/
theorem addFilterHeaders_spec {bh : List ChainHash} {f : Nat} {updateCache : Bool} :
    ∀ (rest : List (List UInt8)) (i : Nat) (cache : GoSlice CFHeaderKV) (headers : List ChainHash),
      IndexAnswer filterHeader (bh.drop (f + i)) rest →
      headers.length + rest.length ≤ bh.length →
      (updateCache = true → cache.elems.length = bh.length) →
      ∃ cache' headers' done,
        addFilterHeaders bh f bh.length updateCache rest i cache headers =
          some (cache', headers', done) ∧
        (done = true → headers' = headers ++ (bh.drop (f + i)).map filterHeader ∧
          (updateCache = true → cache'.elems = cache.elems.take (f + i) ++
            (bh.drop (f + i)).map fun p => ⟨p, filterHeader p⟩)) ∧
        (done = false → [] ∈ rest)
  | [], i, cache, headers, ha, _, hu => by
    have hd : bh.drop (f + i) = [] := List.forall₂_nil_right_iff.mp ha
    refine ⟨_, _, _, rfl, fun _ => ⟨by simp [hd], fun hup => ?_⟩, fun h => by cases h⟩
    rw [hd, List.map_nil, List.append_nil, List.take_of_length_le]
    rw [List.drop_eq_nil_iff] at hd
    have := hu hup
    omega
  | b :: rest, i, cache, headers, ha, hl, hu => by
    obtain ⟨p, ps, hpb, hrest, hd⟩ := List.forall₂_cons_right_iff.mp ha
    have hlt : f + i < bh.length := by
      by_contra hn; rw [List.drop_eq_nil_of_le (by omega)] at hd; cases hd
    rw [List.drop_eq_getElem_cons hlt, List.cons.injEq] at hd
    obtain ⟨rfl, rfl⟩ := hd
    rw [List.drop_eq_getElem_cons hlt]
    have hi : f + (i + 1) = f + i + 1 := by omega
    rw [← hi] at hrest
    simp only [List.length_cons] at hl
    rcases hpb with rfl | rfl
    · exact ⟨cache, headers, false, by simp [addFilterHeaders, hlt], (fun h => by cases h),
        fun _ => List.mem_cons_self _ _⟩
    have hadd : addCFHeader bh.length headers (filterHeader bh[f + i]) =
        headers ++ [filterHeader bh[f + i]] := if_neg (by omega)
    have hne : (filterHeader bh[f + i]).val ≠ [] :=
      List.ne_nil_of_length_pos (by rw [(filterHeader _).property]; decide)
    have hmap : headers ++ [filterHeader bh[f + i]] ++ (bh.drop (f + i + 1)).map filterHeader =
        headers ++ (bh[f + i] :: bh.drop (f + i + 1)).map filterHeader := by
      simp only [List.map_cons, List.append_assoc, List.singleton_append]
    cases updateCache with
    | false =>
      obtain ⟨c', h', d, he, hdone, hfail⟩ :=
        @addFilterHeaders_spec bh f false rest (i + 1) cache
          (headers ++ [filterHeader bh[f + i]]) hrest (by simp; omega) (fun h => by cases h)
      refine ⟨c', h', d, ?_, fun hd => ⟨?_, fun h => by cases h⟩,
        fun hd => List.mem_cons_of_mem _ (hfail hd)⟩
      · simpa [addFilterHeaders, hne, hadd] using he
      · rw [(hdone hd).1, hi, hmap]
    | true =>
      obtain ⟨c₁, hset, hc₁⟩ : ∃ c₁, cache.set (f + i) ⟨bh[f + i], filterHeader bh[f + i]⟩ =
          some c₁ ∧ c₁.elems = cache.elems.set (f + i) ⟨bh[f + i], filterHeader bh[f + i]⟩ :=
        ⟨_, by rw [GoSlice.set, if_pos (by rw [hu rfl]; exact hlt)], rfl⟩
      obtain ⟨c', h', d, he, hdone, hfail⟩ :=
        @addFilterHeaders_spec bh f true rest (i + 1) c₁
          (headers ++ [filterHeader bh[f + i]]) hrest (by simp; omega)
          (fun _ => by rw [hc₁, List.length_set, hu rfl])
      refine ⟨c', h', d, ?_, fun hd => ⟨?_, fun _ => ?_⟩,
        fun hd => List.mem_cons_of_mem _ (hfail hd)⟩
      · simpa [addFilterHeaders, hne, hadd, List.getElem?_eq_getElem hlt, hset] using he
      · rw [(hdone hd).1, hi, hmap]
      · rw [(hdone hd).2 rfl, hi, hc₁, List.take_succ, List.set_take,
          List.set_eq_of_length_le (List.length_take_le _ _),
          List.getElem?_set_self (by rw [hu rfl]; exact hlt)]
        simp only [Option.toList_some, List.map_cons, List.append_assoc, List.singleton_append]

/-! ### A request -/

/-- **What a request does**: it does not panic; a reply lists the cached headers up to the fork
point and the fetched ones after it, and leaves the cache, when the request grew it, rewritten
from the fork point on with the request's chain, and otherwise as it was; a request that ends
without a reply leaves the cache as it was, unless it grew the cache in place and the index
left a header empty. -/
theorem onGetCFCheckpt_spec {r : CfRequest} (hr : r.Ok ancestors filterHeader)
    (cache : GoSlice CFHeaderKV) :
    ∃ c' out, onGetCFCheckpt r cache = some (c', out) ∧
      (out = none → c' = cache ∨ ∃ bh, r.intervalBlockHashes = .ok bh ∧
        cache.elems.length < bh.length ∧ bh.length ≤ cache.cap ∧
        ∃ ptrs answer, r.filterHeadersByBlockHashes ptrs = .ok answer ∧ [] ∈ answer) ∧
      ∀ m, out = some m → ∃ bh, r.intervalBlockHashes = .ok bh ∧ ∃ f,
        f = findForkIdx (cache.elems ++ List.replicate (bh.length - cache.elems.length)
          CFHeaderKV.zero) bh bh.length ∧
        m.filterHeaders = ((cache.elems ++ List.replicate (bh.length - cache.elems.length)
          CFHeaderKV.zero).take f).map (·.filterHeader) ++ (bh.drop f).map filterHeader ∧
        (cache.elems.length < bh.length → c'.elems = (cache.elems ++
          List.replicate (bh.length - cache.elems.length) CFHeaderKV.zero).take f ++
          (bh.drop f).map fun p => ⟨p, filterHeader p⟩) ∧
        (bh.length ≤ cache.elems.length → c' = cache) := by
  unfold onGetCFCheckpt
  by_cases hcur : (!r.isCurrent) = true
  · rw [if_pos hcur]; exact ⟨_, _, rfl, fun _ => .inl rfl, fun _ h => by cases h⟩
  rw [if_neg hcur]
  by_cases hty : r.msg.filterType ≠ gcsFilterRegular
  · rw [if_pos hty]; exact ⟨_, _, rfl, fun _ => .inl rfl, fun _ h => by cases h⟩
  rw [if_neg hty]
  rcases r.intervalBlockHashes with _ | bh
  · exact ⟨_, _, rfl, fun _ => .inl rfl, fun _ h => by cases h⟩
  dsimp only
  have hsh := GoSlice.append_shared cfHeaderKVSize cache
    (List.replicate (bh.length - cache.elems.length) CFHeaderKV.zero)
  have hge := GoSlice.append_elems cfHeaderKVSize cache
    (List.replicate (bh.length - cache.elems.length) CFHeaderKV.zero)
  generalize cache.append cfHeaderKVSize
    (List.replicate (bh.length - cache.elems.length) CFHeaderKV.zero) = grown at hsh hge ⊢
  generalize hw : (if decide (cache.elems.length < bh.length) = true then grown.1 else cache) =
    work
  have hwe : work.elems = cache.elems ++
      List.replicate (bh.length - cache.elems.length) CFHeaderKV.zero := by
    subst hw
    split
    · exact hge
    · rename_i h
      rw [Nat.sub_eq_zero_of_le (by simpa using h), List.replicate_zero, List.append_nil]
  rw [hwe]
  set W := cache.elems ++ List.replicate (bh.length - cache.elems.length) CFHeaderKV.zero
  generalize hf : findForkIdx W bh bh.length = f
  have hfn : f ≤ bh.length := hf ▸ findForkIdx_le _ _ _
  have hWn : bh.length ≤ W.length := by
    simp only [W, List.length_append, List.length_replicate]; omega
  split
  · exact ⟨_, _, rfl, fun _ => .inl rfl, fun _ h => by cases h⟩
  rename_i answer hanswer
  have ha := hr.index _ _ hanswer
  rw [@foldl_addCFHeader bh.length (W.take f) []
    (by simp only [List.length_nil, List.length_take]; omega), List.nil_append]
  obtain ⟨c₂, h₂, done, he, hdone, hfail⟩ :=
    @addFilterHeaders_spec filterHeader bh f (decide (cache.elems.length < bh.length)) answer 0 work
      ((W.take f).map (·.filterHeader)) ha
      (by
        rw [← ha.length_eq]
        simp only [List.map_take, List.length_take, List.length_map, List.length_drop]
        omega)
      (fun hu => by
        rw [hwe]; simp only [W, List.length_append, List.length_replicate]
        have : cache.elems.length < bh.length := by simpa using hu
        omega)
  rw [he, Option.map_some']
  cases done
  · refine ⟨if (decide (cache.elems.length < bh.length) && grown.2) = true then
      c₂.sharedWith cache else cache, none, rfl, fun _ => ?_, fun m hm => by cases hm⟩
    split
    · rename_i hu
      simp only [Bool.and_eq_true, decide_eq_true_eq, hsh, List.length_replicate] at hu
      exact .inr ⟨bh, rfl, hu.1, by omega, _, answer, hanswer, hfail rfl⟩
    · exact .inl rfl
  · refine ⟨if decide (cache.elems.length < bh.length) = true then c₂ else cache,
      some ⟨r.msg.filterType, r.msg.stopHash, h₂⟩, rfl, (fun hn => by cases hn), fun m hm => ?_⟩
    cases hm
    refine ⟨bh, rfl, f, hf.symm, (hdone rfl).1, fun hlt => ?_, fun hle => if_neg (by simpa using hle)⟩
    rw [if_pos (decide_eq_true hlt), (hdone rfl).2 (decide_eq_true hlt), hwe]
    rfl

/-- **A request never panics** when its environment answers as `CfRequest.Ok` allows. -/
theorem onGetCFCheckpt_isSome {r : CfRequest} (hr : r.Ok ancestors filterHeader)
    (cache : GoSlice CFHeaderKV) : (onGetCFCheckpt r cache).isSome := by
  obtain ⟨_, _, h, -⟩ := onGetCFCheckpt_spec hr cache
  rw [h]; rfl

variable {r : CfRequest} {cache c' : GoSlice CFHeaderKV} {out : Option MsgCFCheckpt}

/-- **A reply from a cache of one chain**: it lists the committed filter header of every block
the request covers; a request that grew the cache leaves in it the request's blocks, each with
its header, and any other leaves the cache as it was. -/
theorem CacheOk.reply {bh : List ChainHash} {m : MsgCFCheckpt}
    (hc : CacheOk ancestors filterHeader cache.elems) (hr : r.Ok ancestors filterHeader)
    (hbh : r.intervalBlockHashes = .ok bh) (h : onGetCFCheckpt r cache = some (c', some m)) :
    m.filterHeaders = bh.map filterHeader ∧
      (cache.elems.length < bh.length → c'.elems = bh.map fun p => ⟨p, filterHeader p⟩) ∧
      (bh.length ≤ cache.elems.length → c' = cache) := by
  obtain ⟨c'', out, he, -, hsent⟩ := onGetCFCheckpt_spec hr cache
  rw [h, Option.some.injEq, Prod.mk.injEq] at he
  obtain ⟨rfl, rfl⟩ := he
  obtain ⟨bh', hbh', f, hf, hm, hgrow, hkeep⟩ := hsent m rfl
  rw [hbh, Except.ok.injEq] at hbh'
  subst hbh'
  obtain ⟨htake, hmap⟩ := take_findForkIdx hc (hr.onChain bh hbh) (bh.length - cache.elems.length)
  rw [← hf] at htake hmap
  -- up to the fork point the cache holds the request's blocks with their headers
  have hkv : cache.elems.take f = (bh.take f).map fun p => ⟨p, filterHeader p⟩ := by
    rw [← hmap, List.map_map]
    refine (List.map_id _).symm.trans (List.map_congr_left fun kv hkv => ?_)
    show kv = ⟨kv.blockHash, filterHeader kv.blockHash⟩
    rw [← hc.2 kv (List.mem_of_mem_take hkv)]
  refine ⟨?_, fun hlt => ?_, hkeep⟩
  · rw [hm, htake, hkv, List.map_map]
    show (bh.take f).map filterHeader ++ _ = _
    rw [← List.map_append, List.take_append_drop]
  · rw [hgrow hlt, htake, hkv, ← List.map_append, List.take_append_drop]

/-- **Which replies repair the cache**: after a reply from a cache of one chain, a request whose
chain is longer than the cache leaves in it exactly the request's blocks, each with its
committed filter header; any other request leaves the cache as it was, so a reorganisation
below the cache's length stays in it. -/
theorem onGetCFCheckpt_sent_cache {bh : List ChainHash} {m : MsgCFCheckpt}
    (hc : CacheOk ancestors filterHeader cache.elems) (hr : r.Ok ancestors filterHeader)
    (hbh : r.intervalBlockHashes = .ok bh) (h : onGetCFCheckpt r cache = some (c', some m)) :
    (cache.elems.length < bh.length → c'.elems = bh.map fun p => ⟨p, filterHeader p⟩) ∧
      (bh.length ≤ cache.elems.length → c' = cache) :=
  (hc.reply hr hbh h).2

/-- **A request keeps the cache one chain's**, unless it grew the cache in place, reusing the
stored slice's capacity, and the index left a header empty: the request then ends without a
reply, after writing some of the entries of its own chain into the stored cache. -/
theorem CacheOk.step (hc : CacheOk ancestors filterHeader cache.elems)
    (hr : r.Ok ancestors filterHeader) (h : onGetCFCheckpt r cache = some (c', out)) :
    CacheOk ancestors filterHeader c'.elems ∨ out = none ∧ ∃ bh, r.intervalBlockHashes = .ok bh ∧
      cache.elems.length < bh.length ∧ bh.length ≤ cache.cap ∧
      ∃ ptrs answer, r.filterHeadersByBlockHashes ptrs = .ok answer ∧ [] ∈ answer := by
  obtain ⟨c'', out', he, hunsent, hsent⟩ := onGetCFCheckpt_spec hr cache
  rw [h, Option.some.injEq, Prod.mk.injEq] at he
  obtain ⟨rfl, rfl⟩ := he
  cases out with
  | none =>
    rcases hunsent rfl with rfl | hbad
    · exact .inl hc
    · exact .inr ⟨rfl, hbad⟩
  | some m =>
    left
    obtain ⟨bh, hbh, -⟩ := hsent m rfl
    obtain ⟨-, hgrow, hkeep⟩ := hc.reply hr hbh h
    by_cases hlt : cache.elems.length < bh.length
    · rw [hgrow hlt]
      refine ⟨?_, fun kv hkv => ?_⟩
      · rw [List.map_map]
        show OnChain ancestors (bh.map id)
        rw [List.map_id]
        exact hr.onChain bh hbh
      · obtain ⟨p, -, rfl⟩ := List.mem_map.mp hkv
        rfl
    · rw [hkeep (not_lt.mp hlt)]
      exact hc

/-! ### Runs -/

/-- The caches a run of requests reaches from the empty cache, each request answered as
`CfRequest.Ok` allows and satisfying `P`; between two requests the main chain may change in any
way, reorganisations of any depth included. -/
def CfReachable (ancestors : ChainHash → List ChainHash) (filterHeader : ChainHash → ChainHash)
    (P : CfRequest → Prop) : GoSlice CFHeaderKV → Prop :=
  Relation.ReflTransGen (fun c c' => ∃ r out, r.Ok ancestors filterHeader ∧ P r ∧
    onGetCFCheckpt r c = some (c', out)) GoSlice.nil

/-- The block hash whose bytes are all `k`. -/
def byteHash (k : UInt8) : ChainHash := ⟨List.replicate hashSize k, List.length_replicate _ _⟩

/-- The checkpoints before each block of two chains that fork after block `1`, `1, 2, 3` and
`1, 4, 5, 6`, a block named by its hash's byte. -/
def forkAncestors (x : ChainHash) : List ChainHash :=
  if x = byteHash 2 ∨ x = byteHash 4 then [byteHash 1]
  else if x = byteHash 3 then [byteHash 1, byteHash 2]
  else if x = byteHash 5 then [byteHash 1, byteHash 4]
  else if x = byteHash 6 then [byteHash 1, byteHash 4, byteHash 5] else []

/-- The index's answer when a block's committed filter header is its hash: each hash's bytes,
and, with `gap`, nothing for block `5`. -/
def forkIndex (gap : Bool) (ptrs : List ChainHash) : List (List UInt8) :=
  ptrs.map fun p => if gap && p = byteHash 5 then [] else p.val

/-- A request for the regular filter type on `blockHashes`, answered by `forkIndex gap`. -/
def forkRequest (blockHashes : List ChainHash) (gap : Bool) : CfRequest :=
  ⟨true, ⟨gcsFilterRegular, byteHash 0⟩, .ok blockHashes, fun ptrs => .ok (forkIndex gap ptrs)⟩

theorem forkRequest_ok {blockHashes : List ChainHash} (hb : OnChain forkAncestors blockHashes)
    (gap : Bool) : (forkRequest blockHashes gap).Ok forkAncestors id := by
  refine ⟨fun _ he => by cases he; exact hb, ?_⟩
  rintro ptrs _ ⟨⟩
  refine List.forall₂_map_right_iff.mpr (List.forall₂_same.mpr fun p _ => ?_)
  split
  · exact .inl rfl
  · exact .inr rfl

theorem forkRequest_complete (blockHashes : List ChainHash) :
    (forkRequest blockHashes false).Complete := by
  rintro ptrs _ ⟨⟩ h
  obtain ⟨p, -, hp⟩ := List.mem_map.mp h
  have hlen := p.property
  simp only [Bool.false_and, Bool.false_eq_true, ↓reduceIte] at hp
  rw [hp] at hlen
  exact absurd hlen (by decide)

/-- A request that meets a gap in the index does not panic. -/
theorem onGetCFCheckpt_isSome_gap :
    (forkRequest [byteHash 1, byteHash 4, byteHash 5, byteHash 6] true).Ok forkAncestors id ∧
      (onGetCFCheckpt (forkRequest [byteHash 1, byteHash 4, byteHash 5, byteHash 6] true)
        GoSlice.nil).isSome :=
  ⟨forkRequest_ok (by decide) true, onGetCFCheckpt_isSome (forkRequest_ok (by decide) true) _⟩

/-- **A reply from a half-rewritten cache**: two requests on a chain `1, 2, 3` leave three
entries in a slice of capacity four (`append` doubles two to four).  A reorganisation makes
`1, 4, 5, 6` the main chain; its request grows the cache in place, finds the fork at entry `1`,
writes entry `1` for block `4`, and gets an empty header for block `5`.  Back on the first
chain, a request finds block `3` at entry `2` and serves entries `0` to `2`, the second of which
is block `4`'s. -/
theorem cfCheckpt_serves_other_chain :
    ∃ (ancestors : ChainHash → List ChainHash) (cache : GoSlice CFHeaderKV),
      CfReachable ancestors id (fun _ => True) cache ∧
      ∃ r bh c' m, r.Ok ancestors id ∧ r.intervalBlockHashes = .ok bh ∧
        onGetCFCheckpt r cache = some (c', some m) ∧ m.filterHeaders ≠ bh.map id := by
  let c₁ : GoSlice CFHeaderKV := ⟨[⟨byteHash 1, byteHash 1⟩, ⟨byteHash 2, byteHash 2⟩], 2, by decide⟩
  let c₂ : GoSlice CFHeaderKV :=
    ⟨[⟨byteHash 1, byteHash 1⟩, ⟨byteHash 2, byteHash 2⟩, ⟨byteHash 3, byteHash 3⟩], 4, by decide⟩
  -- the fork's request has written entry `1` in place when it stops at block `5`
  let c₃ : GoSlice CFHeaderKV :=
    ⟨[⟨byteHash 1, byteHash 1⟩, ⟨byteHash 4, byteHash 4⟩, ⟨byteHash 3, byteHash 3⟩], 4, by decide⟩
  have s₁ : onGetCFCheckpt (forkRequest [byteHash 1, byteHash 2] false) GoSlice.nil =
      some (c₁, some ⟨gcsFilterRegular, byteHash 0, [byteHash 1, byteHash 2]⟩) := rfl
  have s₂ : onGetCFCheckpt (forkRequest [byteHash 1, byteHash 2, byteHash 3] false) c₁ =
      some (c₂, some ⟨gcsFilterRegular, byteHash 0, [byteHash 1, byteHash 2, byteHash 3]⟩) := by
    dsimp only [c₁, c₂]; rfl
  have s₃ : onGetCFCheckpt (forkRequest [byteHash 1, byteHash 4, byteHash 5, byteHash 6] true) c₂ =
      some (c₃, none) := by
    dsimp only [c₂, c₃]; rfl
  have s₄ : onGetCFCheckpt (forkRequest [byteHash 1, byteHash 2, byteHash 3] false) c₃ =
      some (c₃, some ⟨gcsFilterRegular, byteHash 0, [byteHash 1, byteHash 4, byteHash 3]⟩) := by
    dsimp only [c₃]; rfl
  exact ⟨forkAncestors, c₃, .tail (.tail (.tail .refl
    ⟨_, _, forkRequest_ok (by decide) false, trivial, s₁⟩)
    ⟨_, _, forkRequest_ok (by decide) false, trivial, s₂⟩)
    ⟨_, _, forkRequest_ok (by decide) true, trivial, s₃⟩,
    _, _, _, _, forkRequest_ok (by decide) false, rfl, s₄, by decide⟩

/-- The cache a request on the chain `1, 2` leaves in the empty cache. -/
def chain12Cache : GoSlice CFHeaderKV :=
  ⟨[⟨byteHash 1, byteHash 1⟩, ⟨byteHash 2, byteHash 2⟩], 2, by decide⟩

/-- A reorganisation to `1, 4, 5` is repaired in the cache of the chain `1, 2`, as its request
grows the cache; a reorganisation to `1, 4` is not. -/
theorem cfCheckpt_repair_needs_growth :
    (∃ (c' : GoSlice CFHeaderKV) (m : MsgCFCheckpt),
      onGetCFCheckpt (forkRequest [byteHash 1, byteHash 4, byteHash 5] false) chain12Cache =
        some (c', some m) ∧
      c'.elems = [byteHash 1, byteHash 4, byteHash 5].map fun p => ⟨p, id p⟩) ∧
    ∃ (c' : GoSlice CFHeaderKV) (m : MsgCFCheckpt),
      onGetCFCheckpt (forkRequest [byteHash 1, byteHash 4] false) chain12Cache =
        some (c', some m) ∧ c' = chain12Cache := by
  have hc : CacheOk forkAncestors id chain12Cache.elems := And.intro (by decide) (by decide)
  have s₁ : onGetCFCheckpt (forkRequest [byteHash 1, byteHash 4, byteHash 5] false) chain12Cache =
      some (⟨[⟨byteHash 1, byteHash 1⟩, ⟨byteHash 4, byteHash 4⟩, ⟨byteHash 5, byteHash 5⟩], 4,
        by decide⟩, some ⟨gcsFilterRegular, byteHash 0, [byteHash 1, byteHash 4, byteHash 5]⟩) := by
    dsimp only [chain12Cache]; rfl
  have s₂ : onGetCFCheckpt (forkRequest [byteHash 1, byteHash 4] false) chain12Cache =
      some (chain12Cache, some ⟨gcsFilterRegular, byteHash 0, [byteHash 1, byteHash 4]⟩) := by
    dsimp only [chain12Cache]; rfl
  exact ⟨⟨_, _, s₁, (onGetCFCheckpt_sent_cache hc (forkRequest_ok (by decide) false) rfl s₁).1
      (by decide)⟩,
    _, _, s₂, (onGetCFCheckpt_sent_cache hc (forkRequest_ok (by decide) false) rfl s₂).2
      (by decide)⟩

/-- **A reorganisation of the cache's length is not written back**: a request on the chain
`1, 2` fills the cache with two entries.  After a reorganisation to `1, 4`, a request answered
in full finds the fork at entry `1` and sends the right headers, but its chain is no longer than
the cache, so `updateCache` is false and entry `1` still holds block `2`. -/
theorem cfCheckpt_cache_keeps_fork :
    ∃ (ancestors : ChainHash → List ChainHash) (cache : GoSlice CFHeaderKV),
      CfReachable ancestors id CfRequest.Complete cache ∧
      ∃ r bh c' m, r.Ok ancestors id ∧ r.Complete ∧ r.intervalBlockHashes = .ok bh ∧
        onGetCFCheckpt r cache = some (c', some m) ∧
        ∃ i, ∃ h : i < bh.length, c'.elems[i]? ≠ some ⟨bh[i], id bh[i]⟩ := by
  let c₁ : GoSlice CFHeaderKV := ⟨[⟨byteHash 1, byteHash 1⟩, ⟨byteHash 2, byteHash 2⟩], 2, by decide⟩
  have s₁ : onGetCFCheckpt (forkRequest [byteHash 1, byteHash 2] false) GoSlice.nil =
      some (c₁, some ⟨gcsFilterRegular, byteHash 0, [byteHash 1, byteHash 2]⟩) := rfl
  have s₂ : onGetCFCheckpt (forkRequest [byteHash 1, byteHash 4] false) c₁ =
      some (c₁, some ⟨gcsFilterRegular, byteHash 0, [byteHash 1, byteHash 4]⟩) := by
    dsimp only [c₁]; rfl
  exact ⟨forkAncestors, c₁, .single ⟨_, _, forkRequest_ok (by decide) false,
    forkRequest_complete _, s₁⟩, _, _, _, _, forkRequest_ok (by decide) false,
    forkRequest_complete _, rfl, s₂, 1, by decide, by dsimp only [c₁]; decide⟩

end Pod.Node
