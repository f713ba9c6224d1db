import Mathlib.Data.List.Basic

/-!
# Node — `HighestKnown`

`OnVersion` runs in each peer's input goroutine, and near its end raises the node's
`HighestKnown`, an atomic `int32`, to the peer's `LastBlock`: it loads the value, and stores
`LastBlock` when that is at least what it loaded.  The load and the store are two atomic steps,
and the callbacks of different peers interleave (`versionStep`, `Versions.Reachable`).

* `highestKnown_announced`: in every run the value is the initial one or the `LastBlock` of a
  callback that stored it, and never below the initial one.
* `serialRun_highestKnown`: in a run where no two callbacks stand between their load and their
  store at once, no step lowers the value, and once every callback has finished it is the
  greatest of the initial value and every `LastBlock`.
* `highestKnown_decreases`: two callbacks announcing `5` and `7` that both load before either
  stores leave `HighestKnown` at `5`.
-/

namespace Pod.Node

/-- Where one `OnVersion` callback stands in its update of `HighestKnown`, with its message's
`LastBlock`. -/
inductive VersionPhase where
  /-- Before `HighestKnown.Load()`. -/
  | announced (lastBlock : Int)
  /-- `Load` returned `hn`. -/
  | loaded (lastBlock hn : Int)
  /-- Past the conditional `Store`. -/
  | finished (lastBlock : Int)
  deriving DecidableEq, Repr

/-- The callback's `LastBlock`. -/
def VersionPhase.lastBlock : VersionPhase → Int
  | .announced b | .loaded b _ | .finished b => b

/-- `HighestKnown` and the callbacks that update it. -/
structure Versions where
  highestKnown : Int
  callbacks : List VersionPhase
  deriving DecidableEq, Repr

/-- `HighestKnown` at `highestKnown`, and one callback per `LastBlock`, none of them loaded. -/
def Versions.start (highestKnown : Int) (lastBlocks : List Int) : Versions :=
  ⟨highestKnown, lastBlocks.map .announced⟩

/-- One atomic step of callback `i`. -/
inductive VersionEvent where
  | load (i : Nat)
  | store (i : Nat)

/-- The step `e`; `none` when callback `i` is not where the step starts. -/
def versionStep (s : Versions) : VersionEvent → Option Versions
  | .load i =>
    match s.callbacks[i]? with
    | some (.announced b) => some ⟨s.highestKnown, s.callbacks.set i (.loaded b s.highestKnown)⟩
    | _ => none
  | .store i =>
    match s.callbacks[i]? with
    | some (.loaded b hn) =>
      some ⟨if b ≥ hn then b else s.highestKnown, s.callbacks.set i (.finished b)⟩
    | _ => none

/-- The states some interleaving of the callbacks reaches. -/
inductive Versions.Reachable (init : Int) (lastBlocks : List Int) : Versions → Prop where
  | start : Reachable init lastBlocks (.start init lastBlocks)
  | step {s s' : Versions} {e : VersionEvent} :
      Reachable init lastBlocks s → versionStep s e = some s' → Reachable init lastBlocks s'

/-- At most one callback stands between its `Load` and its `Store`. -/
def Versions.Serial (s : Versions) : Prop :=
  ∀ (j k : Nat) (bj bk hj hk : Int), s.callbacks[j]? = some (.loaded bj hj) →
    s.callbacks[k]? = some (.loaded bk hk) → j = k

/-- The runs in which the callbacks' updates do not overlap. -/
inductive Versions.SerialRun (init : Int) (lastBlocks : List Int) : Versions → Prop where
  | start : SerialRun init lastBlocks (.start init lastBlocks)
  | step {s s' : Versions} {e : VersionEvent} :
      SerialRun init lastBlocks s → versionStep s e = some s' → s'.Serial →
        SerialRun init lastBlocks s'

/-! ### What one step does -/

variable {s s' : Versions} {e : VersionEvent}

/-- Every step, with its guard. -/
theorem versionStep_cases (h : versionStep s e = some s') :
    (∃ i b, s.callbacks[i]? = some (.announced b) ∧
      s' = ⟨s.highestKnown, s.callbacks.set i (.loaded b s.highestKnown)⟩) ∨
    ∃ i b hn, s.callbacks[i]? = some (.loaded b hn) ∧
      s' = ⟨if b ≥ hn then b else s.highestKnown, s.callbacks.set i (.finished b)⟩ := by
  cases e with
  | load i =>
    simp only [versionStep] at h
    split at h
    · exact .inl ⟨i, _, ‹_›, (Option.some.inj h).symm⟩
    · cases h
  | store i =>
    simp only [versionStep] at h
    split at h
    · exact .inr ⟨i, _, _, ‹_›, (Option.some.inj h).symm⟩
    · cases h

/-- Reading a callback after callback `i` moved on. -/
theorem getElem?_set_of {l : List VersionPhase} {i : Nat} {p : VersionPhase} (h : l[i]? = some p)
    (q : VersionPhase) (k : Nat) : (l.set i q)[k]? = if i = k then some q else l[k]? := by
  simp [List.getElem?_set, (List.getElem?_eq_some_iff.mp h).1]

/-- Moving callback `i` on keeps the `LastBlock`s. -/
theorem map_lastBlock_set {l : List VersionPhase} {i : Nat} {p q : VersionPhase}
    (h : l[i]? = some p) (hq : q.lastBlock = p.lastBlock) :
    (l.set i q).map VersionPhase.lastBlock = l.map VersionPhase.lastBlock := by
  refine List.ext_getElem? fun k => ?_
  rw [List.getElem?_map, List.getElem?_map, getElem?_set_of h]
  split
  · subst_vars; rw [h]; exact congrArg some hq
  · rfl

theorem map_lastBlock_versionStep (h : versionStep s e = some s') :
    s'.callbacks.map VersionPhase.lastBlock = s.callbacks.map VersionPhase.lastBlock := by
  rcases versionStep_cases h with ⟨i, b, hi, rfl⟩ | ⟨i, b, hn, hi, rfl⟩ <;>
    exact map_lastBlock_set hi rfl

/-- A step leaves every other callback where it was. -/
theorem getElem?_versionStep_ne {i k : Nat} {p q : VersionPhase} (hi : s.callbacks[i]? = some p)
    (hik : i ≠ k) : (s.callbacks.set i q)[k]? = s.callbacks[k]? := by
  rw [getElem?_set_of hi, if_neg hik]

/-- The callback a step moves was not finished, so a finished one is another. -/
theorem ne_of_finished {i k : Nat} {p : VersionPhase} {b : Int} (hi : s.callbacks[i]? = some p)
    (hp : ∀ b', p ≠ .finished b') (hk : s.callbacks[k]? = some (.finished b)) : i ≠ k := by
  rintro rfl
  exact hp b (Option.some.inj (hi.symm.trans hk))

variable {init : Int} {lastBlocks : List Int}

theorem Versions.Reachable.map_lastBlock (h : s.Reachable init lastBlocks) :
    s.callbacks.map VersionPhase.lastBlock = lastBlocks := by
  induction h with
  | start => simp [Versions.start, Function.comp_def, VersionPhase.lastBlock]
  | step _ hs ih => rw [map_lastBlock_versionStep hs, ih]

theorem lastBlock_mem {k : Nat} {b : Int} (hk : s.callbacks[k]? = some (.finished b))
    (hmap : s.callbacks.map VersionPhase.lastBlock = lastBlocks) : b ∈ lastBlocks :=
  hmap ▸ List.mem_map_of_mem VersionPhase.lastBlock (List.getElem?_mem hk)

/-! ### Every interleaving -/

/-- What holds in every run: `HighestKnown` and every value a callback loaded are at least the
initial value, and `HighestKnown` is the initial value or the `LastBlock` of a finished
callback. -/
def Versions.Announced (init : Int) (s : Versions) : Prop :=
  init ≤ s.highestKnown ∧
    (∀ (k : Nat) (b hn : Int), s.callbacks[k]? = some (.loaded b hn) → init ≤ hn) ∧
    (s.highestKnown = init ∨ ∃ k : Nat, s.callbacks[k]? = some (.finished s.highestKnown))

theorem Versions.Announced.step (hinv : s.Announced init) (h : versionStep s e = some s') :
    s'.Announced init := by
  obtain ⟨hle, hloaded, hval⟩ := hinv
  rcases versionStep_cases h with ⟨i, b, hi, rfl⟩ | ⟨i, b, hn, hi, rfl⟩
  · -- a load: the value stays, and callback `i` reads it
    refine ⟨hle, fun k b' hn' hk => ?_, ?_⟩
    · rw [getElem?_set_of hi] at hk
      split at hk
      · cases hk; exact hle
      · exact hloaded k b' hn' hk
    · refine hval.imp_right fun ⟨k, hk⟩ => ⟨k, ?_⟩
      rwa [getElem?_versionStep_ne hi (ne_of_finished hi (fun _ => nofun) hk)]
  · -- a store: what it stores is at least what callback `i` loaded
    have hinit := hloaded i b hn hi
    refine ⟨by dsimp only; split <;> omega, fun k b' hn' hk => ?_, ?_⟩
    · rw [getElem?_set_of hi] at hk
      split at hk
      · cases hk
      · exact hloaded k b' hn' hk
    · dsimp only
      split
      · exact .inr ⟨i, by rw [getElem?_set_of hi, if_pos rfl]⟩
      · refine hval.imp_right fun ⟨k, hk⟩ => ⟨k, ?_⟩
        rwa [getElem?_versionStep_ne hi (ne_of_finished hi (fun _ => nofun) hk)]

/-- **No value out of thin air**: in every interleaving `HighestKnown` is the initial value or
one of the announced `LastBlock`s, and never below the initial value. -/
theorem highestKnown_announced (h : s.Reachable init lastBlocks) :
    init ≤ s.highestKnown ∧ (s.highestKnown = init ∨ s.highestKnown ∈ lastBlocks) := by
  have hinv : s.Announced init := by
    induction h with
    | start => exact ⟨Int.le_refl _, fun k b hn hk => by simp [Versions.start] at hk, .inl rfl⟩
    | step _ hs ih => exact ih.step hs
  obtain ⟨hle, -, hval⟩ := hinv
  exact ⟨hle, hval.imp_right fun ⟨_, hk⟩ => lastBlock_mem hk h.map_lastBlock⟩

/-- Callbacks announcing `5` and `7` both load `0`, and the second stores first: the value `5`
left by the first store is still an announced `LastBlock`, above the initial `0`. -/
theorem highestKnown_announced_interleaved :
    Versions.Reachable 0 [5, 7] ⟨5, [.finished 5, .finished 7]⟩ ∧
      0 ≤ (5 : Int) ∧ ((5 : Int) = 0 ∨ (5 : Int) ∈ [5, 7]) :=
  have h : Versions.Reachable 0 [5, 7] ⟨5, [.finished 5, .finished 7]⟩ :=
    .step (e := .store 0) (.step (e := .store 1)
      (.step (e := .load 1) (.step (e := .load 0) .start rfl) rfl) rfl) rfl
  ⟨h, highestKnown_announced h⟩

/-! ### Runs without overlapping updates -/

/-- What holds in a serial run: the value is the greatest of the initial value and the
finished callbacks' `LastBlock`s, and the one callback between its load and its store read
it. -/
def Versions.SerialInv (init : Int) (s : Versions) : Prop :=
  s.Serial ∧ init ≤ s.highestKnown ∧
    (∀ (k : Nat) (b : Int), s.callbacks[k]? = some (.finished b) → b ≤ s.highestKnown) ∧
    (∀ (k : Nat) (b hn : Int), s.callbacks[k]? = some (.loaded b hn) → hn = s.highestKnown) ∧
    (s.highestKnown = init ∨ ∃ k : Nat, s.callbacks[k]? = some (.finished s.highestKnown))

theorem Versions.SerialRun.reachable (h : s.SerialRun init lastBlocks) :
    s.Reachable init lastBlocks := by
  induction h with
  | start => exact .start
  | step _ hs _ ih => exact .step ih hs

/-- In a serial run no step lowers `HighestKnown`: a store follows its own load directly. -/
theorem highestKnown_le_versionStep (hinv : s.SerialInv init) (h : versionStep s e = some s') :
    s.highestKnown ≤ s'.highestKnown := by
  rcases versionStep_cases h with ⟨i, b, hi, rfl⟩ | ⟨i, b, hn, hi, rfl⟩
  · exact Int.le_refl _
  · have := hinv.2.2.2.1 i b hn hi
    dsimp only; split <;> omega

theorem Versions.SerialInv.step (hinv : s.SerialInv init) (h : versionStep s e = some s')
    (hser : s'.Serial) : s'.SerialInv init := by
  have hmono := highestKnown_le_versionStep hinv h
  obtain ⟨hser₀, hle, hfin, hloaded, hval⟩ := hinv
  refine ⟨hser, Int.le_trans hle hmono, ?_, ?_, ?_⟩
  all_goals rcases versionStep_cases h with ⟨i, b, hi, rfl⟩ | ⟨i, b, hn, hi, rfl⟩
  · -- a load leaves every finished callback finished
    intro k b' hk
    rw [getElem?_set_of hi] at hk
    split at hk
    · cases hk
    · exact hfin k b' hk
  · -- a store finishes callback `i` at most at the new value
    intro k b' hk
    rw [getElem?_set_of hi] at hk
    split at hk
    · cases hk
      have := hloaded i b hn hi
      dsimp only; split <;> omega
    · exact Int.le_trans (hfin k b' hk) hmono
  · -- after a load, callback `i` is the only one loaded
    intro k b' hn' hk
    have hki := hser i k b b' _ hn' (by rw [getElem?_set_of hi, if_pos rfl]) hk
    subst hki
    rw [getElem?_set_of hi, if_pos rfl] at hk
    cases hk; rfl
  · -- after a store, no callback is loaded: `i` was the only one
    intro k b' hn' hk
    rw [getElem?_set_of hi] at hk
    split at hk
    · cases hk
    · exact absurd (hser₀ i k b b' hn hn' hi hk) ‹_›
  · refine hval.imp_right fun ⟨k, hk⟩ => ⟨k, ?_⟩
    rwa [getElem?_versionStep_ne hi (ne_of_finished hi (fun _ => nofun) hk)]
  · dsimp only
    split
    · exact .inr ⟨i, by rw [getElem?_set_of hi, if_pos rfl]⟩
    · refine hval.imp_right fun ⟨k, hk⟩ => ⟨k, ?_⟩
      rwa [getElem?_versionStep_ne hi (ne_of_finished hi (fun _ => nofun) hk)]

/-- **Serial updates are right**: in a run where no two callbacks stand between their load and
their store at once, no step lowers `HighestKnown`, and once every callback has finished it is
the greatest of its initial value and every announced `LastBlock`. -/
theorem serialRun_highestKnown (h : s.SerialRun init lastBlocks) :
    (∀ e s', versionStep s e = some s' → s.highestKnown ≤ s'.highestKnown) ∧
      ((∀ p ∈ s.callbacks, ∃ b, p = .finished b) →
        init ≤ s.highestKnown ∧ (∀ b ∈ lastBlocks, b ≤ s.highestKnown) ∧
          (s.highestKnown = init ∨ s.highestKnown ∈ lastBlocks)) := by
  have hinv : s.SerialInv init := by
    induction h with
    | start =>
      refine ⟨fun j k bj bk hj hk h₁ _ => by simp [Versions.start] at h₁, Int.le_refl _,
        fun k b hk => by simp [Versions.start] at hk, fun k b hn hk => by simp [Versions.start] at hk,
        .inl rfl⟩
    | step _ hs hser ih => exact ih.step hs hser
  have hmap := h.reachable.map_lastBlock
  refine ⟨fun e s' hs => highestKnown_le_versionStep hinv hs, fun hall => ⟨hinv.2.1, ?_, ?_⟩⟩
  · -- every `LastBlock` is a finished callback's
    intro b hb
    rw [← hmap] at hb
    obtain ⟨p, hp, rfl⟩ := List.mem_map.mp hb
    obtain ⟨b', rfl⟩ := hall p hp
    obtain ⟨k, hk⟩ := List.mem_iff_getElem?.mp hp
    exact hinv.2.2.1 k b' hk
  · exact hinv.2.2.2.2.imp_right fun ⟨_, hk⟩ => lastBlock_mem hk hmap

/-- A state whose callbacks other than `i` are not loaded is serial. -/
theorem Versions.serial_of_loaded {s : Versions} (i : Nat)
    (h : ∀ (k : Nat) (b hn : Int), s.callbacks[k]? = some (.loaded b hn) → k = i) : s.Serial :=
  fun j k _ _ _ _ hj hk => (h j _ _ hj).trans (h k _ _ hk).symm

/-- Callbacks announcing `5` and `7` update one after the other: the second one's store raises
the value from `5` to `7`, and once both have finished it is `7`, the greatest `LastBlock`. -/
theorem serialRun_highestKnown_inOrder :
    Versions.SerialRun 0 [5, 7] ⟨5, [.finished 5, .loaded 7 5]⟩ ∧
      versionStep ⟨5, [.finished 5, .loaded 7 5]⟩ (.store 1) =
        some ⟨7, [.finished 5, .finished 7]⟩ ∧ (5 : Int) ≤ 7 ∧
      Versions.SerialRun 0 [5, 7] ⟨7, [.finished 5, .finished 7]⟩ ∧
        0 ≤ (7 : Int) ∧ (∀ b ∈ [(5 : Int), 7], b ≤ 7) ∧ ((7 : Int) = 0 ∨ (7 : Int) ∈ [5, 7]) := by
  have h₀ : Versions.SerialRun 0 [5, 7] ⟨5, [.finished 5, .announced 7]⟩ :=
    .step (e := .store 0) (s := ⟨0, [.loaded 5 0, .announced 7]⟩)
      (.step (e := .load 0) .start rfl (Versions.serial_of_loaded 0 fun k _ _ hk => by
        rcases k with _ | _ | k <;> simp at hk ⊢))
      rfl (Versions.serial_of_loaded 0 fun k _ _ hk => by rcases k with _ | _ | k <;> simp at hk)
  have h₁ : Versions.SerialRun 0 [5, 7] ⟨5, [.finished 5, .loaded 7 5]⟩ :=
    .step (e := .load 1) h₀ rfl (Versions.serial_of_loaded 1 fun k _ _ hk => by
      rcases k with _ | _ | k <;> simp at hk ⊢)
  have hs : versionStep ⟨5, [.finished 5, .loaded 7 5]⟩ (.store 1) =
      some ⟨7, [.finished 5, .finished 7]⟩ := rfl
  have h₂ : Versions.SerialRun 0 [5, 7] ⟨7, [.finished 5, .finished 7]⟩ :=
    .step h₁ hs (Versions.serial_of_loaded 0 fun k _ _ hk => by
      rcases k with _ | _ | k <;> simp at hk)
  exact ⟨h₁, hs, (serialRun_highestKnown h₁).1 _ _ hs, h₂,
    (serialRun_highestKnown h₂).2 (by simp)⟩

/-- **A lost update**: callbacks announcing `5` and `7` both load `0`; the second stores `7`,
then the first stores `5`, since `5 ≥ 0`.  `HighestKnown` falls from `7` to `5` and stays there
with both callbacks finished. -/
theorem highestKnown_decreases :
    Versions.Reachable 0 [5, 7] ⟨7, [.loaded 5 0, .finished 7]⟩ ∧
      versionStep ⟨7, [.loaded 5 0, .finished 7]⟩ (.store 0) =
        some ⟨5, [.finished 5, .finished 7]⟩ :=
  ⟨.step (e := .store 1) (.step (e := .load 1) (.step (e := .load 0) .start rfl) rfl) rfl, rfl⟩

end Pod.Node
