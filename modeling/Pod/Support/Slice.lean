import Mathlib

/-!
# Support — Go slices

A Go slice is a window on a backing array: its elements, and its capacity, the room the array
has from the window's start.  `append` writes in place when the capacity suffices, and the
result then shares its array with the slice it extends: a write through the result shows in
the other slice below that slice's length (`GoSlice.sharedWith`).  Otherwise `append` copies
into a new array, whose capacity the runtime's `growslice` chooses: `nextslicecap`, as since
Go 1.18, rounded up to the block `mallocgc` allocates (`roundupsize`).  A `GoSlice` leaves out
what its array holds past its length: `append` overwrites those elements before they show.  A
`Window` keeps them, for code whose slice expressions `s[low:high]` reach past a slice's length,
up to its capacity.

* `le_growCap`: the capacity `growslice` chooses holds the new length.
* `Window.elems_slice`: a slice expression within the length takes the elements between its
  bounds.
-/

namespace Pod

/-- A Go slice: its elements and its capacity. -/
structure GoSlice (α : Type) where
  elems : List α
  cap : Nat
  len_le_cap : elems.length ≤ cap

namespace GoSlice

variable {α : Type}

/-- A `nil` slice. -/
def nil : GoSlice α := ⟨[], 0, le_rfl⟩

/-! ### `growslice` -/

/-- The runtime's size classes: the sizes, in bytes, of the blocks `mallocgc` hands out below
32 KiB (`sizeclasses.go`). -/
def sizeClasses : List Nat :=
  [0, 8, 16, 24, 32, 48, 64, 80, 96, 112, 128, 144, 160, 176, 192, 208, 224, 240, 256, 288, 320,
    352, 384, 416, 448, 480, 512, 576, 640, 704, 768, 896, 1024, 1152, 1280, 1408, 1536, 1792,
    2048, 2304, 2688, 3072, 3200, 3456, 4096, 4864, 5376, 6144, 6528, 6784, 6912, 8192, 9472,
    9728, 10240, 10880, 12288, 13568, 14336, 16384, 18432, 19072, 20480, 21760, 24576, 27264,
    28672, 32768]

/-- `roundupsize`: the size of the block allocated for `size` bytes, the least size class that
holds them below 32 KiB, and whole 8 KiB pages from there on. -/
def roundupsize (size : Nat) : Nat :=
  if size < 32768 then (sizeClasses.find? (size ≤ ·)).getD size
  else (size + 8191) / 8192 * 8192

/-- The loop of `nextslicecap` from 256 elements on: grow by a quarter and 192 elements until
`newLen` fits. -/
def growLarge (newLen newcap : Nat) : Nat :=
  let newcap := newcap + (newcap + 3 * 256) / 4
  if newLen ≤ newcap then newcap else growLarge newLen newcap
termination_by newLen - newcap

/-- `nextslicecap`: the capacity `append` asks for when `newLen` elements do not fit in
`oldCap`: `newLen` when that is more than double, double below 256 elements, and `growLarge`
above. -/
def nextslicecap (newLen oldCap : Nat) : Nat :=
  if 2 * oldCap < newLen then newLen
  else if oldCap < 256 then 2 * oldCap
  else growLarge newLen oldCap

/-- The capacity `growslice` gives a slice of `elemSize`-byte elements that must hold `newLen`:
`nextslicecap`, rounded up to the block allocated. -/
def growCap (elemSize newLen oldCap : Nat) : Nat :=
  if elemSize = 0 then newLen
  else roundupsize (nextslicecap newLen oldCap * elemSize) / elemSize

theorem le_roundupsize (size : Nat) : size ≤ roundupsize size := by
  unfold roundupsize
  split
  · cases h : sizeClasses.find? (size ≤ ·) with
    | none => exact le_rfl
    | some c => simpa using List.find?_some h
  · omega

theorem le_growLarge (newLen newcap : Nat) : newLen ≤ growLarge newLen newcap := by
  rw [growLarge]
  split
  · assumption
  · exact le_growLarge _ _
termination_by newLen - newcap
decreasing_by omega

theorem le_nextslicecap (newLen oldCap : Nat) : newLen ≤ nextslicecap newLen oldCap := by
  unfold nextslicecap
  split
  · exact le_rfl
  · split
    · omega
    · exact le_growLarge _ _

theorem le_growCap (elemSize newLen oldCap : Nat) : newLen ≤ growCap elemSize newLen oldCap := by
  unfold growCap
  split
  · exact le_rfl
  · rw [Nat.le_div_iff_mul_le (Nat.pos_of_ne_zero ‹_›)]
    calc newLen * elemSize ≤ nextslicecap newLen oldCap * elemSize :=
          Nat.mul_le_mul_right _ (le_nextslicecap _ _)
      _ ≤ _ := le_roundupsize _

/-! ### Operations -/

/-- `append(s, xs...)` for elements of `elemSize` bytes: in place when the capacity suffices,
the result then sharing `s`'s array (the `Bool`); otherwise into a new array of `growslice`'s
capacity. -/
def append (elemSize : Nat) (s : GoSlice α) (xs : List α) : GoSlice α × Bool :=
  if h : s.elems.length + xs.length ≤ s.cap then
    (⟨s.elems ++ xs, s.cap, by rw [List.length_append]; exact h⟩, true)
  else
    (⟨s.elems ++ xs, growCap elemSize (s.elems.length + xs.length) s.cap, by
      rw [List.length_append]; exact le_growCap _ _ _⟩, false)

@[simp] theorem append_elems (elemSize : Nat) (s : GoSlice α) (xs : List α) :
    (s.append elemSize xs).1.elems = s.elems ++ xs := by
  unfold append; split <;> rfl

@[simp] theorem append_shared (elemSize : Nat) (s : GoSlice α) (xs : List α) :
    (s.append elemSize xs).2 = decide (s.elems.length + xs.length ≤ s.cap) := by
  unfold append; split <;> simp [*]

/-- `s[i] = v`, or a run-time panic when `i` is out of range. -/
def set (s : GoSlice α) (i : Nat) (v : α) : Option (GoSlice α) :=
  if i < s.elems.length then some ⟨s.elems.set i v, s.cap, by simpa using s.len_le_cap⟩
  else none

/-- `t` once `append` extended it in place to `s` and `s` was written: `t`'s length and
capacity over `s`'s elements. -/
def sharedWith (s t : GoSlice α) : GoSlice α :=
  ⟨s.elems.take t.elems.length, t.cap, (List.length_take_le _ _).trans t.len_le_cap⟩

end GoSlice

/-! ### Slice expressions -/

/-- A slice with the part of its backing array it can reach: the array from the slice's first
element up to its capacity, and the slice's length. -/
structure Window (α : Type) where
  room : List α
  len : Nat
  len_le : len ≤ room.length

namespace Window

variable {α : Type}

/-- `cap(s)`. -/
def cap (s : Window α) : Nat := s.room.length

/-- The slice's elements. -/
def elems (s : Window α) : List α := s.room.take s.len

/-- A slice of the elements `xs` whose array has the elements `spare` past them. -/
def ofList (xs spare : List α) : Window α := ⟨xs ++ spare, xs.length, by simp⟩

/-- `s[low:high]`, or a run-time panic unless `low ≤ high ≤ cap(s)`. -/
def slice (s : Window α) (low high : Nat) : Option (Window α) :=
  if h : low ≤ high ∧ high ≤ s.cap then
    some ⟨s.room.drop low, high - low, by unfold cap at h; simp; omega⟩
  else none

@[simp] theorem length_elems (s : Window α) : s.elems.length = s.len := by
  simp [elems, s.len_le]

@[simp] theorem elems_ofList (xs spare : List α) : (ofList xs spare).elems = xs := by
  simp [ofList, elems]

@[simp] theorem len_ofList (xs spare : List α) : (ofList xs spare).len = xs.length := rfl

@[simp] theorem cap_ofList (xs spare : List α) :
    (ofList xs spare).cap = xs.length + spare.length := by
  simp [ofList, cap]

theorem slice_eq_none {s : Window α} {low high : Nat} :
    s.slice low high = none ↔ ¬ (low ≤ high ∧ high ≤ s.cap) := by
  unfold slice; split <;> simp [*]

theorem len_le_cap (s : Window α) : s.len ≤ s.cap := s.len_le

/-- **A slice expression within the length** takes the elements between its bounds. -/
theorem elems_slice {s : Window α} {low high : Nat} (h₁ : low ≤ high) (h₂ : high ≤ s.len) :
    ∃ s', s.slice low high = some s' ∧ s'.elems = (s.elems.drop low).take (high - low) := by
  refine ⟨_, dif_pos ⟨h₁, h₂.trans s.len_le⟩, ?_⟩
  simp only [elems, List.drop_take, List.take_take]
  congr 1
  omega

/-- `s[low:high]` past the length, within the capacity: the array's elements there. -/
theorem slice_room {s : Window α} {low high : Nat} (h₁ : low ≤ high) (h₂ : high ≤ s.cap) :
    s.slice low high = some ⟨s.room.drop low, high - low, by unfold cap at h₂; simp; omega⟩ :=
  dif_pos ⟨h₁, h₂⟩

end Window

end Pod
