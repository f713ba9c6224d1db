import Mathlib.Data.List.Basic

/-!
# RPC — the client limit

The RPC server's `"/"` handler turns a request away with `503` when `LimitConnections` finds
`NumClients + 1 > RPCMaxClients`; otherwise it calls `IncrementClients` and defers
`DecrementClients`.  The load in `LimitConnections`, the increment and the decrement are each
atomic, but nothing makes the check and the increment one step.

Each request's handler has a phase, and the handlers' steps interleave in any order (`step`,
`Reachable`).

* `numClients_eq_serving`: in every run `NumClients` counts the handlers between their
  increment and their decrement: the atomics lose no update.
* `inFlight_le_of_serial`: in a run where no two handlers stand between the check and the
  increment at once, at most `RPCMaxClients` requests are in flight.
* `limit_passes_all`: for any limit of at least one, any number of requests that all load
  `NumClients` before one of them increments it all pass.
* `limitConnections_race`: two requests in flight with `RPCMaxClients = 1`.
-/

namespace Pod.Rpc

/-- `LimitConnections`' test: one more client would exceed `RPCMaxClients`. -/
def limitConnections (maxClients numClients : Int) : Bool :=
  numClients + 1 > maxClients

/-- Where one request's `"/"` handler stands. -/
inductive Phase where
  /-- Before `LimitConnections`. -/
  | arrived
  /-- `LimitConnections` let it through; `IncrementClients` has not run. -/
  | passed
  /-- Counted; `CheckAuth` and `JSONRPCRead` run, `DecrementClients` is deferred. -/
  | serving
  /-- Turned away with `503`. -/
  | rejected
  /-- `DecrementClients` ran. -/
  | returned
  deriving DecidableEq, Repr

/-- The server's `NumClients` and the handler of each request it has received. -/
structure RpcServer where
  numClients : Int
  handlers : List Phase
  deriving Repr

/-- No request yet. -/
def RpcServer.init : RpcServer := ⟨0, []⟩

/-- The requests that passed `LimitConnections` and have not returned. -/
def RpcServer.inFlight (s : RpcServer) : Nat :=
  s.handlers.count .passed + s.handlers.count .serving

/-- One atomic step of one handler, or a new request. -/
inductive Event where
  | request
  | limit (i : Nat)
  | increment (i : Nat)
  | decrement (i : Nat)

/-- The step `e`; `none` when handler `i` is not where the step starts. -/
def step (maxClients : Int) (s : RpcServer) : Event → Option RpcServer
  | .request => some ⟨s.numClients, s.handlers ++ [.arrived]⟩
  | .limit i =>
    if s.handlers[i]? = some .arrived then
      some ⟨s.numClients, s.handlers.set i
        (if limitConnections maxClients s.numClients then .rejected else .passed)⟩
    else none
  | .increment i =>
    if s.handlers[i]? = some .passed then some ⟨s.numClients + 1, s.handlers.set i .serving⟩
    else none
  | .decrement i =>
    if s.handlers[i]? = some .serving then some ⟨s.numClients - 1, s.handlers.set i .returned⟩
    else none

/-- The states some interleaving of the handlers reaches. -/
inductive Reachable (maxClients : Int) : RpcServer → Prop where
  | init : Reachable maxClients .init
  | step {s s' : RpcServer} {e : Event} :
      Reachable maxClients s → step maxClients s e = some s' → Reachable maxClients s'

/-! ### What one step does -/

variable {maxClients : Int} {s s' : RpcServer} {e : Event}

/-- Every step, with its guard. -/
theorem step_cases (h : step maxClients s e = some s') :
    s' = ⟨s.numClients, s.handlers ++ [.arrived]⟩ ∨
    (∃ i, s.handlers[i]? = some .arrived ∧ s' = ⟨s.numClients, s.handlers.set i
        (if limitConnections maxClients s.numClients then .rejected else .passed)⟩) ∨
    (∃ i, s.handlers[i]? = some .passed ∧ s' = ⟨s.numClients + 1, s.handlers.set i .serving⟩) ∨
    ∃ i, s.handlers[i]? = some .serving ∧ s' = ⟨s.numClients - 1, s.handlers.set i .returned⟩ := by
  cases e with
  | request => exact .inl (Option.some.inj h).symm
  | limit i =>
    simp only [step] at h; split at h
    · exact .inr (.inl ⟨i, ‹_›, (Option.some.inj h).symm⟩)
    · cases h
  | increment i =>
    simp only [step] at h; split at h
    · exact .inr (.inr (.inl ⟨i, ‹_›, (Option.some.inj h).symm⟩))
    · cases h
  | decrement i =>
    simp only [step] at h; split at h
    · exact .inr (.inr (.inr ⟨i, ‹_›, (Option.some.inj h).symm⟩))
    · cases h

/-- Replacing the `i`-th entry moves one count from the old value to the new one. -/
theorem count_set_add {α : Type} [DecidableEq α] {l : List α} {i : Nat} {a : α}
    (h : l[i]? = some a) (b c : α) :
    (l.set i b).count c + (if a = c then 1 else 0) = l.count c + if b = c then 1 else 0 := by
  induction l generalizing i with
  | nil => simp at h
  | cons x l ih =>
    cases i with
    | zero =>
      simp only [List.getElem?_cons_zero, Option.some.injEq] at h
      subst h
      simp only [List.set_cons_zero, List.count_cons, beq_iff_eq]
      split_ifs <;> omega
    | succ i =>
      have := ih (by simpa using h)
      simp only [List.set_cons_succ, List.count_cons]
      omega

/-- A step from `a` to `b` leaves the count of any third phase alone. -/
theorem count_set_of_ne {l : List Phase} {i : Nat} {a : Phase} (h : l[i]? = some a) {b c : Phase}
    (ha : a ≠ c) (hb : b ≠ c) : (l.set i b).count c = l.count c := by
  simpa [ha, hb] using count_set_add h b c

/-! ### Invariants of every run -/

/-- **No lost update**: `NumClients` is the number of handlers that incremented and have not
yet decremented. -/
theorem numClients_eq_serving (h : Reachable maxClients s) :
    s.numClients = s.handlers.count .serving := by
  induction h with
  | init => rfl
  | step _ hs ih =>
    rcases step_cases hs with rfl | ⟨i, hi, rfl⟩ | ⟨i, hi, rfl⟩ | ⟨i, hi, rfl⟩
    · simpa using ih
    · rw [count_set_of_ne hi (by decide) (by split <;> decide)]; exact ih
    · have := count_set_add hi .serving .serving
      simp only [reduceCtorEq, if_false, if_true] at this
      dsimp only; omega
    · have := count_set_add hi .returned .serving
      simp only [reduceCtorEq, if_false, if_true] at this
      dsimp only; omega

/-- The runs in which no two handlers stand between `LimitConnections` and `IncrementClients`
at once, as when requests arrive one at a time. -/
inductive SerialReachable (maxClients : Int) : RpcServer → Prop where
  | init : SerialReachable maxClients .init
  | step {s s' : RpcServer} {e : Event} : SerialReachable maxClients s →
      step maxClients s e = some s' → s'.handlers.count .passed ≤ 1 → SerialReachable maxClients s'

theorem SerialReachable.reachable (h : SerialReachable maxClients s) : Reachable maxClients s := by
  induction h with
  | init => exact .init
  | step _ hs _ ih => exact .step ih hs

/-- **The limit holds in serial runs**: when no two handlers are between the check and the
increment at once, at most `RPCMaxClients` requests are in flight. -/
theorem inFlight_le_of_serial (h0 : 0 ≤ maxClients) (h : SerialReachable maxClients s) :
    (s.inFlight : Int) ≤ maxClients := by
  induction h with
  | init => simpa [RpcServer.inFlight, RpcServer.init] using h0
  | @step s s' e hr hs hp ih =>
    have hn := numClients_eq_serving hr.reachable
    unfold RpcServer.inFlight at ih ⊢
    rcases step_cases hs with rfl | ⟨i, hi, rfl⟩ | ⟨i, hi, rfl⟩ | ⟨i, hi, rfl⟩
    · simpa using ih
    · have hs' := count_set_of_ne hi (c := .serving) (by decide)
        (b := if limitConnections maxClients s.numClients then .rejected else .passed)
        (by split <;> decide)
      have hp' := count_set_add hi
        (if limitConnections maxClients s.numClients then .rejected else .passed) .passed
      dsimp only at hp ⊢
      rw [hs']
      by_cases hl : limitConnections maxClients s.numClients
      · simp only [hl, if_true, reduceCtorEq, if_false] at hp' ⊢; omega
      · simp only [hl, if_false, reduceCtorEq, if_true, Bool.false_eq_true] at hp' hp ⊢
        simp only [limitConnections, decide_eq_true_eq, not_lt] at hl
        omega
    · have h₁ := count_set_add hi .serving .serving
      have h₂ := count_set_add hi .serving .passed
      simp only [reduceCtorEq, if_false, if_true] at h₁ h₂
      dsimp only; omega
    · have h₁ := count_set_add hi .returned .serving
      have h₂ := count_set_of_ne hi (b := .returned) (c := .passed) (by decide) (by decide)
      simp only [reduceCtorEq, if_false, if_true] at h₁
      dsimp only; omega

/-- One request served under a limit of one. -/
theorem inFlight_le_of_serial_one :
    SerialReachable 1 ⟨1, [.serving]⟩ ∧ ((⟨1, [.serving]⟩ : RpcServer).inFlight : Int) ≤ 1 :=
  have h : SerialReachable 1 ⟨1, [.serving]⟩ :=
    .step (e := .increment 0) (.step (e := .limit 0) (.step (e := .request) .init rfl (by decide))
      rfl (by decide)) rfl (by decide)
  ⟨h, inFlight_le_of_serial (by decide) h⟩

/-! ### The race -/

/-- Requests that each load `NumClients` right after they arrive, before any of them
increments it, all pass. -/
theorem reachable_passed (h : 1 ≤ maxClients) :
    ∀ k, Reachable maxClients ⟨0, List.replicate k .passed⟩
  | 0 => .init
  | k + 1 => by
    have hl : limitConnections maxClients 0 = false := by
      simpa [limitConnections] using Int.not_lt.mpr h
    refine .step (e := .limit k) (.step (e := .request) (reachable_passed h k) rfl) ?_
    simp [step, hl, List.replicate_succ']

/-- **Any number of requests pass** a limit of at least one, when they all load
`NumClients` before one of them increments it. -/
theorem limit_passes_all (h : 1 ≤ maxClients) (k : Nat) :
    ∃ s, Reachable maxClients s ∧ s.inFlight = k :=
  ⟨_, reachable_passed h k, by simp [RpcServer.inFlight, List.count_replicate]⟩

/-- Three requests past a limit of one. -/
theorem limit_passes_all_three : ∃ s, Reachable 1 s ∧ s.inFlight = 3 :=
  limit_passes_all (by decide) 3

/-- **Two clients past a limit of one**: the second request loads `NumClients` after the
first passed `LimitConnections` and before it called `IncrementClients`. -/
theorem limitConnections_race :
    Reachable 1 ⟨2, [.serving, .serving]⟩ ∧ RpcServer.inFlight ⟨2, [.serving, .serving]⟩ = 2 :=
  ⟨.step (e := .increment 1) (.step (e := .increment 0) (.step (e := .limit 1)
    (.step (e := .request) (.step (e := .limit 0) (.step (e := .request) .init rfl) rfl) rfl)
    rfl) rfl) rfl, rfl⟩

end Pod.Rpc
