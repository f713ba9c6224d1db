import Pod.Node.CfCheckpt
import Pod.Support.Go

/-!
# Node — merging the checkpoints

`MergeCheckpoints` merges the chain's default checkpoints with the ones the user adds: a map
`extra` keeps, per height, the last checkpoint added for it; the defaults at a height of no
added checkpoint come first, then the values of `extra` in the order the `range` over the map
visits them, and `sort.Sort` orders the whole by height.  The `range` order is a parameter
(`order`, any permutation of the map's keys), and so is the sort algorithm (`CheckpointSort`,
any function that meets `sort.Sort`'s contract with `CheckpointSorter.Less`).

* `lookup_extraCheckpoints`: `extra` maps each height to the last checkpoint added at it.
* `mergeCheckpoints_spec`: for defaults of distinct heights, the result is strictly increasing
  in height and holds exactly the added checkpoints that are last at their height and the
  defaults at a height of no added checkpoint, in every `range` order and for every sort.
-/

namespace Pod.Node

/-- A `chaincfg.Checkpoint`: a height and the hash of the block there. -/
structure Checkpoint where
  height : Int
  hash : ChainHash
  deriving DecidableEq

/-- `CheckpointSorter.Less`. -/
def checkpointLess (a b : Checkpoint) : Prop := a.height < b.height

/-- `sort.Sort` over a `CheckpointSorter`: a permutation of the slice in which no checkpoint is
`Less` than one before it.  Which permutation, among checkpoints of one height, is the
algorithm's. -/
structure CheckpointSort where
  sort : List Checkpoint → List Checkpoint
  perm : ∀ cs, List.Perm (sort cs) cs
  sorted : ∀ cs, (sort cs).Pairwise fun a b => ¬ checkpointLess b a

/-- The map `extra`: each height of `additional` with the checkpoint last added at it. -/
def extraCheckpoints (additional : List Checkpoint) : GoMap Int Checkpoint :=
  additional.foldl (fun extra c => extra.insert c.height c) ∅

/-- `MergeCheckpoints`, where `order` is the order in which the `range` over `extra` visits its
keys. -/
def mergeCheckpoints (srt : CheckpointSort) (defaultCheckpoints additional : List Checkpoint)
    (order : List Int) : List Checkpoint :=
  let extra := extraCheckpoints additional
  srt.sort (defaultCheckpoints.filter (fun c => (extra.lookup c.height).isNone) ++
    order.filterMap extra.lookup)

/-! ### The map `extra` -/

/-- The checkpoint last added at height `h`. -/
def lastAtHeight (additional : List Checkpoint) (h : Int) : Option Checkpoint :=
  additional.reverse.find? fun c => c.height = h

theorem lookup_foldl_insert (h : Int) :
    ∀ (cs : List Checkpoint) (extra : GoMap Int Checkpoint),
      (cs.foldl (fun extra c => extra.insert c.height c) extra).lookup h =
        (lastAtHeight cs h).or (extra.lookup h)
  | [], _ => rfl
  | c :: cs, extra => by
    rw [List.foldl_cons, lookup_foldl_insert h cs, lastAtHeight, lastAtHeight, List.reverse_cons,
      List.find?_append, Option.or_assoc]
    congr 1
    by_cases hc : c.height = h
    · subst hc; simp
    · simp [AList.lookup_insert_ne (Ne.symm hc), hc]

/-- **What `extra` holds**: the last checkpoint added at each height. -/
theorem lookup_extraCheckpoints (additional : List Checkpoint) (h : Int) :
    (extraCheckpoints additional).lookup h = lastAtHeight additional h := by
  rw [extraCheckpoints, lookup_foldl_insert]
  exact Option.or_none

theorem height_of_lastAtHeight {additional : List Checkpoint} {h : Int} {c : Checkpoint}
    (hc : lastAtHeight additional h = some c) : c.height = h := by
  simpa using List.find?_some hc

theorem lastAtHeight_eq_none {additional : List Checkpoint} {h : Int} :
    lastAtHeight additional h = none ↔ ∀ a ∈ additional, a.height ≠ h := by
  simp [lastAtHeight]

/-- The `range` appends the checkpoints of the keys it visits, each at its own height. -/
theorem map_height_filterMap_lookup {extra : GoMap Int Checkpoint}
    (hext : ∀ k c, extra.lookup k = some c → c.height = k) :
    ∀ order : List Int, (∀ k ∈ order, k ∈ extra) →
      (order.filterMap extra.lookup).map (·.height) = order
  | [], _ => rfl
  | k :: order, hk => by
    obtain ⟨c, hc⟩ := Option.isSome_iff_exists.mp
      (AList.lookup_isSome.mpr (hk k (List.mem_cons_self _ _)))
    rw [List.filterMap_cons, hc, List.map_cons, hext k c hc,
      map_height_filterMap_lookup hext order fun k' h => hk k' (List.mem_cons_of_mem _ h)]

/-! ### The merged list -/

section Merge

variable {defaultCheckpoints additional : List Checkpoint} {order : List Int}

/-- Before the sort: the defaults kept and the added checkpoints have distinct heights. -/
theorem nodup_heights_unsorted (hd : (defaultCheckpoints.map (·.height)).Nodup)
    (ho : List.Perm order (extraCheckpoints additional).keys) :
    ((defaultCheckpoints.filter (fun c => ((extraCheckpoints additional).lookup c.height).isNone) ++
      order.filterMap (extraCheckpoints additional).lookup).map (·.height)).Nodup := by
  have hext : ∀ k c, (extraCheckpoints additional).lookup k = some c → c.height = k :=
    fun k c hc => height_of_lastAtHeight ((lookup_extraCheckpoints _ _).symm.trans hc)
  rw [List.map_append, map_height_filterMap_lookup hext order
    fun k h => AList.mem_keys.mp (ho.subset h)]
  refine List.Nodup.append (hd.sublist ((List.filter_sublist _).map _))
    (ho.nodup_iff.mpr (AList.keys_nodup _)) fun h hf ho' => ?_
  -- a default is kept only at a height `extra` does not hold
  obtain ⟨c, hc, rfl⟩ := List.mem_map.mp hf
  have hnone := (List.mem_filter.mp hc).2
  rw [Option.isNone_iff_eq_none, AList.lookup_eq_none] at hnone
  exact hnone (AList.mem_keys.mp (ho.subset ho'))

/-- Before the sort: the defaults at a height of no added checkpoint, and the added
checkpoints last at their height. -/
theorem mem_unsorted (ho : List.Perm order (extraCheckpoints additional).keys) (c : Checkpoint) :
    c ∈ defaultCheckpoints.filter (fun c => ((extraCheckpoints additional).lookup c.height).isNone) ++
        order.filterMap (extraCheckpoints additional).lookup ↔
      lastAtHeight additional c.height = some c ∨
        (c ∈ defaultCheckpoints ∧ ∀ a ∈ additional, a.height ≠ c.height) := by
  simp only [List.mem_append, List.mem_filter, List.mem_filterMap, lookup_extraCheckpoints,
    Option.isNone_iff_eq_none, lastAtHeight_eq_none]
  constructor
  · rintro (hdef | ⟨k, -, hk⟩)
    · exact .inr hdef
    · exact .inl ((height_of_lastAtHeight hk).symm ▸ hk)
  · rintro (hlast | hdef)
    · -- the height of an added checkpoint is a key, so the `range` reaches it
      refine .inr ⟨c.height, ho.mem_iff.mpr (AList.mem_keys.mpr (AList.lookup_isSome.mp ?_)), ?_⟩
      · rw [lookup_extraCheckpoints, hlast]; rfl
      · exact hlast
    · exact .inl hdef

/-- **What `MergeCheckpoints` returns**: for default checkpoints of distinct heights and any
added ones, in every order of the `range` over `extra` and for every sort algorithm, the result
is strictly increasing in height and holds exactly the added checkpoint last at each height and
the defaults at a height of no added checkpoint. -/
theorem mergeCheckpoints_spec (srt : CheckpointSort)
    (hd : (defaultCheckpoints.map (·.height)).Nodup) (additional : List Checkpoint)
    (ho : List.Perm order (extraCheckpoints additional).keys) :
    (mergeCheckpoints srt defaultCheckpoints additional order).Pairwise
        (fun a b => a.height < b.height) ∧
      ∀ c, c ∈ mergeCheckpoints srt defaultCheckpoints additional order ↔
        lastAtHeight additional c.height = some c ∨
          (c ∈ defaultCheckpoints ∧ ∀ a ∈ additional, a.height ≠ c.height) := by
  have hperm := srt.perm (defaultCheckpoints.filter
    (fun c => ((extraCheckpoints additional).lookup c.height).isNone) ++
      order.filterMap (extraCheckpoints additional).lookup)
  refine ⟨?_, fun c => hperm.mem_iff.trans (mem_unsorted ho c)⟩
  -- sorted by `Less` with no two heights equal is strictly increasing
  have hne := List.pairwise_map.mp ((hperm.map _).nodup_iff.mpr (nodup_heights_unsorted hd ho))
  exact ((srt.sorted _).and hne).imp fun h => by unfold checkpointLess at h; omega

end Merge

/-- `CheckpointSorter.Less` read as `≤` on heights. -/
def heightLe (a b : Checkpoint) : Prop := a.height ≤ b.height

instance : DecidableRel heightLe := fun a b => inferInstanceAs (Decidable (a.height ≤ b.height))
instance : IsTotal Checkpoint heightLe := ⟨fun a b => le_total a.height b.height⟩
instance : IsTrans Checkpoint heightLe := ⟨fun _ _ _ => le_trans⟩

/-- Insertion sort by height meets `sort.Sort`'s contract. -/
def insertionCheckpointSort : CheckpointSort :=
  ⟨List.insertionSort heightLe, List.perm_insertionSort heightLe,
    fun cs => (List.sorted_insertionSort heightLe cs).imp fun h => by
      unfold heightLe at h; unfold checkpointLess; omega⟩

/-- Defaults at heights 1 and 2. -/
def defaultsOneTwo : List Checkpoint := [⟨1, byteHash 1⟩, ⟨2, byteHash 2⟩]

/-- The user adds two checkpoints at height 2 and one at 3. -/
def addedTwice : List Checkpoint := [⟨2, byteHash 3⟩, ⟨3, byteHash 4⟩, ⟨2, byteHash 5⟩]

/-- Any `range` order of `extra` serves: here heights 3 then 2. -/
theorem mergeCheckpoints_spec_addedTwice :
    (defaultsOneTwo.map (·.height)).Nodup ∧ List.Perm [3, 2] (extraCheckpoints addedTwice).keys ∧
      ((mergeCheckpoints insertionCheckpointSort defaultsOneTwo addedTwice [3, 2]).Pairwise
          (fun a b => a.height < b.height) ∧
        ∀ c, c ∈ mergeCheckpoints insertionCheckpointSort defaultsOneTwo addedTwice [3, 2] ↔
          lastAtHeight addedTwice c.height = some c ∨
            (c ∈ defaultsOneTwo ∧ ∀ a ∈ addedTwice, a.height ≠ c.height)) :=
  ⟨by decide, by decide,
    mergeCheckpoints_spec insertionCheckpointSort (by decide) addedTwice (by decide)⟩

example : mergeCheckpoints insertionCheckpointSort defaultsOneTwo addedTwice [3, 2] =
    [⟨1, byteHash 1⟩, ⟨2, byteHash 5⟩, ⟨3, byteHash 4⟩] := by decide

end Pod.Node
