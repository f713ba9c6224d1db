import Pod.Support.Go

/-!
# Kopach — the controller a worker follows

A kopach worker takes jobs from the first controller it hears since the last reset: the job
handler loads `FirstSender`, drops the job when another controller holds it, and otherwise
stores its own address in `FirstSender`, stores the time in `lastSent` and forwards the job
to the local workers.  The solution handler clears `FirstSender`, and so does the watchdog
goroutine when a tick finds the last job more than three seconds old.

Datagrams are handled one at a time, but each load and store is its own step, and the
watchdog's steps interleave with the handler's (`step`, `Reachable`).  The log records what
the other side sees: the stores to `FirstSender` and the commands to the workers.

* `pending_firstSender`: while a job is handled, `FirstSender` holds its address or nothing,
  so a job of another controller than a non-empty `FirstSender` is never forwarded.
* `forward_switch_reset`: between the `FirstSender` store of a forwarded job from `a` and the
  forward of a later job from `b ≠ a` there is a reset.
* `forward_switch_without_reset`: a tick between the handler's two stores clears
  `FirstSender` before the job is forwarded, and the next controller's job follows with no
  reset after the first forward.
-/

namespace Pod.Kopach

open Pod

/-- `net.JoinHostPort` of a job's first IP and its controller's listener port. -/
def controllerAddr (host : GoString) (port : Nat) : GoString :=
  GoString.joinHostPort host (.ofAscii (toString port))

/-- Where the datagram handler stands in a job message. -/
inductive Handler where
  | idle
  /-- `FirstSender` loaded, and the job kept. -/
  | loaded (addr : GoString)
  /-- `FirstSender` stored. -/
  | storedFirst (addr : GoString)
  /-- `lastSent` stored. -/
  | storedLast (addr : GoString)
  deriving DecidableEq, Repr

/-- The controller of the job being handled. -/
def Handler.pending : Handler → Option GoString
  | .idle => none
  | .loaded a | .storedFirst a | .storedLast a => some a

/-- Where the controller watchdog goroutine stands. -/
inductive Watchdog where
  | waiting
  /-- At a tick, `lastSent` loaded: `since` is the time since then. -/
  | loaded (since : Time)
  /-- The controller has been silent and `FirstSender` was set. -/
  | clearing
  /-- `FirstSender` cleared; the workers are paused next. -/
  | pausing
  deriving DecidableEq, Repr

/-- A store to `FirstSender` or a command to the local workers. -/
inductive Obs where
  /-- The job handler's `FirstSender.Store(addr)`. -/
  | store (addr : GoString)
  /-- The solution handler's `FirstSender.Store("")`. -/
  | solution
  /-- The watchdog's `FirstSender.Store("")`. -/
  | cleared
  /-- `NewJob` to every worker. -/
  | forward (addr : GoString)
  /-- `Pause` to every worker. -/
  | pause
  deriving DecidableEq, Repr

/-- The two stores of `""` to `FirstSender`. -/
def Obs.resets : Obs → Bool
  | .solution | .cleared => true
  | _ => false

/-- The fields of `Worker` the handlers and the watchdog share, the clock, the two
goroutines' positions and the log. -/
structure Worker where
  active : Bool
  firstSender : GoString
  lastSent : Time
  now : Time
  nextTick : Time
  handler : Handler
  watchdog : Watchdog
  log : List Obs
  deriving Repr

/-- `Handle` once the watchdog starts at time `t`: active, no sender, `lastSent = t`. -/
def Worker.start (t : Time) : Worker :=
  ⟨true, [], t, t, t + Time.second, .idle, .waiting, []⟩

/-- The job handler up to its `FirstSender` check. -/
def jobStart (w : Worker) (addr : GoString) : Worker :=
  if !w.active then w
  else
    let firstSender := w.firstSender
    if firstSender ≠ addr ∧ firstSender ≠ [] then w
    else { w with handler := .loaded addr }

/-- The job handler's next step once it kept the job. -/
def jobStep (w : Worker) : Handler → Option Worker
  | .idle => none
  | .loaded addr =>
    some { w with firstSender := addr, log := w.log ++ [.store addr], handler := .storedFirst addr }
  | .storedFirst addr => some { w with lastSent := w.now, handler := .storedLast addr }
  | .storedLast addr => some { w with log := w.log ++ [.forward addr], handler := .idle }

/-- The pause handler: it pauses the workers when the pause comes from `FirstSender`. -/
def pauseHandler (w : Worker) (ns : GoString) : Worker :=
  if w.firstSender = ns then { w with log := w.log ++ [.pause] } else w

/-- The solution handler. -/
def solHandler (w : Worker) : Worker :=
  { w with firstSender := [], log := w.log ++ [.solution] }

/-- The watchdog's next step; a tick comes once a second. -/
def watchStep (w : Worker) : Watchdog → Option Worker
  | .waiting =>
    if w.nextTick ≤ w.now then
      some { w with watchdog := .loaded (w.now - w.lastSent), nextTick := w.nextTick + Time.second }
    else none
  | .loaded since =>
    some { w with
      watchdog := if since > 3 * Time.second ∧ w.firstSender ≠ [] then .clearing else .waiting }
  | .clearing => some { w with firstSender := [], log := w.log ++ [.cleared], watchdog := .pausing }
  | .pausing => some { w with log := w.log ++ [.pause], watchdog := .waiting }

/-- What can happen next. -/
inductive Event where
  /-- A job datagram from the controller at `host` listening on `port`. -/
  | job (host : GoString) (port : Nat)
  | pauseMsg (host : GoString) (port : Nat)
  | solution
  /-- The job handler's next step. -/
  | handle
  /-- The watchdog's next step. -/
  | watch
  | elapse (d : Nat)
  /-- The interrupt handler's `active.Store(false)`. -/
  | interrupt

/-- One step; a datagram waits until the handler is done with the previous one. -/
def step (w : Worker) : Event → Option Worker
  | .job host port => if w.handler = .idle then some (jobStart w (controllerAddr host port)) else none
  | .pauseMsg host port =>
    if w.handler = .idle then some (pauseHandler w (controllerAddr host port)) else none
  | .solution => if w.handler = .idle then some (solHandler w) else none
  | .handle => jobStep w w.handler
  | .watch => watchStep w w.watchdog
  | .elapse d => some { w with now := w.now + d }
  | .interrupt => some { w with active := false }

/-- The states some interleaving reaches from `Worker.start t`. -/
inductive Reachable (t : Time) : Worker → Prop where
  | start : Reachable t (Worker.start t)
  | step {w w' : Worker} {e : Event} : Reachable t w → step w e = some w' → Reachable t w'

/-- The steps `es`, one after the other. -/
def run (w : Worker) : List Event → Option Worker
  | [] => some w
  | e :: es => (step w e).bind fun w' => run w' es

theorem Reachable.run {t : Time} {w w' : Worker} (h : Reachable t w) :
    ∀ (es : List Event), Kopach.run w es = some w' → Reachable t w'
  | [], he => by cases he; exact h
  | e :: es, he => by
    obtain ⟨w₁, h₁, h₂⟩ := Option.bind_eq_some.mp he
    exact (h.step h₁).run es h₂

/-! ### What one step does -/

/-- The job handler keeps the job only when `FirstSender` is empty or its controller. -/
theorem jobStart_cases (w : Worker) (addr : GoString) :
    jobStart w addr = w ∨ (w.firstSender = addr ∨ w.firstSender = []) ∧
      jobStart w addr = { w with handler := .loaded addr } := by
  unfold jobStart
  split
  · exact .inl rfl
  · dsimp only; split
    · exact .inl rfl
    · rename_i hne
      exact .inr ⟨by by_contra hc; exact hne (not_or.mp hc), rfl⟩

/-- Every step, by what it does to the log, `FirstSender` and the handler. -/
theorem step_cases {w w' : Worker} {e : Event} (h : step w e = some w') :
    (w'.log = w.log ∧ w'.firstSender = w.firstSender ∧ (w'.handler = w.handler ∨
      (w.handler = .idle ∧ ∃ a, w'.handler = .loaded a ∧ a ≠ [] ∧
        (w.firstSender = a ∨ w.firstSender = [])) ∨
      ∃ a, w.handler = .storedFirst a ∧ w'.handler = .storedLast a)) ∨
    (∃ a, w.handler = .loaded a ∧ w'.log = w.log ++ [.store a] ∧ w'.firstSender = a ∧
      w'.handler = .storedFirst a) ∨
    (∃ a, w.handler = .storedLast a ∧ w'.log = w.log ++ [.forward a] ∧
      w'.firstSender = w.firstSender ∧ w'.handler = .idle) ∨
    (w'.log = w.log ++ [.pause] ∧ w'.firstSender = w.firstSender ∧ w'.handler = w.handler) ∨
    ∃ o, (o = .cleared ∨ o = .solution ∧ w.handler = .idle) ∧ w'.log = w.log ++ [o] ∧
      w'.firstSender = [] ∧ w'.handler = w.handler := by
  cases e with
  | job host port =>
    simp only [step] at h; split at h
    · rename_i hi; cases h
      rcases jobStart_cases w (controllerAddr host port) with he | ⟨hs, he⟩ <;> rw [he]
      · exact .inl ⟨rfl, rfl, .inl rfl⟩
      · exact .inl ⟨rfl, rfl, .inr (.inl ⟨hi, _, rfl, GoString.joinHostPort_ne_nil _ _, hs⟩)⟩
    · cases h
  | pauseMsg host port =>
    simp only [step] at h; split at h
    · cases h; unfold pauseHandler; split
      · exact .inr (.inr (.inr (.inl ⟨rfl, rfl, rfl⟩)))
      · exact .inl ⟨rfl, rfl, .inl rfl⟩
    · cases h
  | solution =>
    simp only [step] at h; split at h
    · cases h; exact .inr (.inr (.inr (.inr ⟨.solution, .inr ⟨rfl, ‹_›⟩, rfl, rfl, rfl⟩)))
    · cases h
  | handle =>
    simp only [step] at h
    cases hw : w.handler with
    | idle => rw [hw] at h; cases h
    | loaded a => rw [hw] at h; cases h; exact .inr (.inl ⟨a, rfl, rfl, rfl, rfl⟩)
    | storedFirst a => rw [hw] at h; cases h; exact .inl ⟨rfl, rfl, .inr (.inr ⟨a, rfl, rfl⟩)⟩
    | storedLast a => rw [hw] at h; cases h; exact .inr (.inr (.inl ⟨a, rfl, rfl, rfl, rfl⟩))
  | watch =>
    simp only [step] at h
    cases hw : w.watchdog with
    | waiting =>
      rw [hw] at h; simp only [watchStep] at h; split at h
      · cases h; exact .inl ⟨rfl, rfl, .inl rfl⟩
      · cases h
    | loaded since => rw [hw] at h; cases h; exact .inl ⟨rfl, rfl, .inl rfl⟩
    | clearing => rw [hw] at h; cases h; exact .inr (.inr (.inr (.inr ⟨.cleared, .inl rfl, rfl, rfl, rfl⟩)))
    | pausing => rw [hw] at h; cases h; exact .inr (.inr (.inr (.inl ⟨rfl, rfl, rfl⟩)))
  | elapse d => cases h; exact .inl ⟨rfl, rfl, .inl rfl⟩
  | interrupt => cases h; exact .inl ⟨rfl, rfl, .inl rfl⟩

/-! ### Positions in the log -/

theorem getElem?_snoc_eq_some {α : Type} {l : List α} {a b : α} {i : Nat} :
    (l ++ [a])[i]? = some b ↔ l[i]? = some b ∨ i = l.length ∧ a = b := by
  rcases lt_trichotomy i l.length with h | rfl | h
  · simp [List.getElem?_append_left h, h.ne]
  · simp
  · have h₁ : l.length ≤ i := h.le
    have h₂ : (l ++ [a]).length ≤ i := by simpa using h
    simp [List.getElem?_eq_none h₁, List.getElem?_eq_none h₂, h.ne']

/-- A reset stands in `log` strictly between positions `i` and `j`. -/
def ResetBetween (log : List Obs) (i j : Nat) : Prop :=
  ∃ k, i < k ∧ k < j ∧ ∃ o, log[k]? = some o ∧ o.resets = true

/-- Between positions `i` and `j` the log holds only watchdog clears and pauses. -/
def Quiet (log : List Obs) (i j : Nat) : Prop :=
  ∀ m o, i < m → m < j → log[m]? = some o → o = .cleared ∨ o = .pause

variable {log : List Obs} {i j : Nat}

theorem ResetBetween.snoc (h : ResetBetween log i j) (o : Obs) (hj : j ≤ j') :
    ResetBetween (log ++ [o]) i j' :=
  let ⟨k, h₁, h₂, o', hk, hr⟩ := h
  ⟨k, h₁, by omega, o', getElem?_snoc_eq_some.mpr (.inl hk), hr⟩

theorem resetBetween_snoc_last {o : Obs} (ho : o.resets = true) (hi : i < log.length) :
    ResetBetween (log ++ [o]) i (log.length + 1) :=
  ⟨log.length, hi, by omega, o, getElem?_snoc_eq_some.mpr (.inr ⟨rfl, rfl⟩), ho⟩

theorem Quiet.snoc (h : Quiet log i j) (o : Obs) (hj : j ≤ log.length) : Quiet (log ++ [o]) i j :=
  fun m o' h₁ h₂ hm => h m o' h₁ h₂ (by
    rcases getElem?_snoc_eq_some.mp hm with hm | ⟨rfl, -⟩
    · exact hm
    · omega)

theorem Quiet.snoc_last (h : Quiet log i log.length) {o : Obs} (ho : o = .cleared ∨ o = .pause) :
    Quiet (log ++ [o]) i (log.length + 1) :=
  fun m o' h₁ h₂ hm => by
    rcases getElem?_snoc_eq_some.mp hm with hm | ⟨rfl, rfl⟩
    · exact h m o' h₁ (by have := (List.getElem?_eq_some_iff.mp hm).1; omega) hm
    · exact ho

theorem lt_length_of_getElem? {α : Type} {l : List α} {a : α} (h : l[i]? = some a) :
    i < l.length :=
  (List.getElem?_eq_some_iff.mp h).1

/-! ### The invariant -/

/-- What every reachable state satisfies. -/
structure Inv (w : Worker) : Prop where
  store_ne : ∀ (i : Nat) (a : GoString), w.log[i]? = some (.store a) → a ≠ []
  /-- The job being handled is from the controller in `FirstSender`, or `FirstSender` is
  empty. -/
  pending : ∀ a, w.handler.pending = some a → a ≠ [] ∧ (w.firstSender = a ∨ w.firstSender = [])
  /-- A store with no reset after it stored what `FirstSender` holds. -/
  current : ∀ (i : Nat) (a : GoString), w.log[i]? = some (.store a) →
    ResetBetween w.log i w.log.length ∨ a = w.firstSender
  /-- Two stores of different controllers have a reset between them. -/
  uniform : ∀ (i j : Nat) (a b : GoString), i < j → w.log[i]? = some (.store a) →
    w.log[j]? = some (.store b) →
    a ≠ b → ResetBetween w.log i j
  /-- A job past its `FirstSender` store: the store, and only the watchdog since. -/
  stored : ∀ a, w.handler = .storedFirst a ∨ w.handler = .storedLast a →
    ∃ i, w.log[i]? = some (.store a) ∧ Quiet w.log i w.log.length
  /-- Each forward follows its own store with only the watchdog between. -/
  forwarded : ∀ (j : Nat) (a : GoString), w.log[j]? = some (.forward a) →
    ∃ i < j, w.log[i]? = some (.store a) ∧ Quiet w.log i j

theorem Inv.start (t : Time) : Inv (Worker.start t) :=
  ⟨by simp [Worker.start], by simp [Worker.start, Handler.pending], by simp [Worker.start],
    by simp [Worker.start], by simp [Worker.start], by simp [Worker.start]⟩

variable {w w' : Worker}

/-- A step that leaves the log and `FirstSender` alone. -/
theorem Inv.quiet (h : Inv w) (hl : w'.log = w.log) (hf : w'.firstSender = w.firstSender)
    (hh : w'.handler = w.handler ∨ (w.handler = .idle ∧ ∃ a, w'.handler = .loaded a ∧ a ≠ [] ∧
        (w.firstSender = a ∨ w.firstSender = [])) ∨
      ∃ a, w.handler = .storedFirst a ∧ w'.handler = .storedLast a) : Inv w' := by
  refine ⟨hl ▸ h.store_ne, ?_, hl ▸ hf ▸ h.current, hl ▸ h.uniform, ?_, hl ▸ h.forwarded⟩
  · rw [hf]
    rcases hh with hh | ⟨-, a, hh, ha, hs⟩ | ⟨a, h₀, hh⟩ <;> rw [hh]
    · exact h.pending
    · rintro _ ⟨⟩; exact ⟨ha, hs⟩
    · rintro _ ⟨⟩; exact h.pending a (by rw [h₀]; rfl)
  · rw [hl]
    rcases hh with hh | ⟨-, a, hh, -⟩ | ⟨a, h₀, hh⟩ <;> rw [hh]
    · exact h.stored
    · rintro _ (hb | hb) <;> cases hb
    · rintro _ (hb | hb) <;> cases hb; exact h.stored a (.inl h₀)

/-- The job handler's `FirstSender.Store(addr)`. -/
theorem Inv.store (h : Inv w) {a : GoString} (h₀ : w.handler = .loaded a)
    (hl : w'.log = w.log ++ [.store a]) (hf : w'.firstSender = a)
    (hh : w'.handler = .storedFirst a) : Inv w' := by
  obtain ⟨ha, hs⟩ := h.pending a (by rw [h₀]; rfl)
  -- an earlier store of another controller has a reset after it
  have hreset : ∀ i b, w.log[i]? = some (.store b) → b ≠ a → ResetBetween w.log i w.log.length :=
    fun i b hi hb => (h.current i b hi).resolve_right fun he => by
      rcases hs with hs | hs
      · exact hb (he.trans hs)
      · exact h.store_ne i b hi (he.trans hs)
  refine ⟨?_, ?_, ?_, ?_, ?_, ?_⟩ <;> simp only [hl, hf, hh]
  · intro i b hi
    rcases getElem?_snoc_eq_some.mp hi with hi | ⟨-, ⟨⟩⟩
    · exact h.store_ne i b hi
    · exact ha
  · rintro _ ⟨⟩; exact ⟨ha, .inl rfl⟩
  · intro i b hi
    rcases getElem?_snoc_eq_some.mp hi with hi | ⟨-, ⟨⟩⟩
    · by_cases hb : b = a
      · exact .inr hb
      · exact .inl ((hreset i b hi hb).snoc _ (by simp))
    · exact .inr rfl
  · intro i j b c hij hi hj hbc
    rcases getElem?_snoc_eq_some.mp hj with hj | ⟨rfl, ⟨⟩⟩
    · exact (h.uniform i j b c hij (getElem?_snoc_eq_some.mp hi |>.resolve_right
        fun ⟨he, _⟩ => by have := lt_length_of_getElem? hj; omega) hj hbc).snoc _ le_rfl
    · have hi' := getElem?_snoc_eq_some.mp hi |>.resolve_right fun ⟨he, _⟩ => by omega
      exact (hreset i b hi' hbc).snoc _ le_rfl
  · rintro _ (hb | hb) <;> cases hb
    exact ⟨w.log.length, by simp, fun m o h₁ h₂ => by simp at h₂; omega⟩
  · intro j b hj
    rcases getElem?_snoc_eq_some.mp hj with hj | ⟨-, ⟨⟩⟩
    obtain ⟨i, hij, hi, hq⟩ := h.forwarded j b hj
    exact ⟨i, hij, getElem?_snoc_eq_some.mpr (.inl hi),
      hq.snoc _ (lt_length_of_getElem? hj).le⟩

/-- The job handler forwards the job. -/
theorem Inv.forward (h : Inv w) {a : GoString} (h₀ : w.handler = .storedLast a)
    (hl : w'.log = w.log ++ [.forward a]) (hf : w'.firstSender = w.firstSender)
    (hh : w'.handler = .idle) : Inv w' := by
  refine ⟨?_, ?_, ?_, ?_, ?_, ?_⟩ <;> simp only [hl, hf, hh]
  · intro i b hi
    rcases getElem?_snoc_eq_some.mp hi with hi | ⟨-, ⟨⟩⟩
    exact h.store_ne i b hi
  · rintro _ ⟨⟩
  · intro i b hi
    rcases getElem?_snoc_eq_some.mp hi with hi | ⟨-, ⟨⟩⟩
    exact (h.current i b hi).imp_left fun hr => hr.snoc _ (by simp)
  · intro i j b c hij hi hj hbc
    rcases getElem?_snoc_eq_some.mp hj with hj | ⟨-, ⟨⟩⟩
    have hi' := getElem?_snoc_eq_some.mp hi |>.resolve_right
      fun ⟨he, _⟩ => by have := lt_length_of_getElem? hj; omega
    exact (h.uniform i j b c hij hi' hj hbc).snoc _ le_rfl
  · rintro _ (hb | hb) <;> cases hb
  · intro j b hj
    rcases getElem?_snoc_eq_some.mp hj with hj | ⟨rfl, ⟨⟩⟩
    · obtain ⟨i, hij, hi, hq⟩ := h.forwarded j b hj
      exact ⟨i, hij, getElem?_snoc_eq_some.mpr (.inl hi),
        hq.snoc _ (lt_length_of_getElem? hj).le⟩
    · obtain ⟨i, hi, hq⟩ := h.stored a (.inr h₀)
      exact ⟨i, lt_length_of_getElem? hi, getElem?_snoc_eq_some.mpr (.inl hi), hq.snoc _ le_rfl⟩

/-- A pause to the workers, from the pause handler or the watchdog. -/
theorem Inv.pause (h : Inv w) (hl : w'.log = w.log ++ [.pause])
    (hf : w'.firstSender = w.firstSender) (hh : w'.handler = w.handler) : Inv w' := by
  refine ⟨?_, ?_, ?_, ?_, ?_, ?_⟩ <;> simp only [hl, hf, hh]
  · intro i b hi
    rcases getElem?_snoc_eq_some.mp hi with hi | ⟨-, ⟨⟩⟩
    exact h.store_ne i b hi
  · exact h.pending
  · intro i b hi
    rcases getElem?_snoc_eq_some.mp hi with hi | ⟨-, ⟨⟩⟩
    exact (h.current i b hi).imp_left fun hr => hr.snoc _ (by simp)
  · intro i j b c hij hi hj hbc
    rcases getElem?_snoc_eq_some.mp hj with hj | ⟨-, ⟨⟩⟩
    have hi' := getElem?_snoc_eq_some.mp hi |>.resolve_right
      fun ⟨he, _⟩ => by have := lt_length_of_getElem? hj; omega
    exact (h.uniform i j b c hij hi' hj hbc).snoc _ le_rfl
  · intro a ha
    obtain ⟨i, hi, hq⟩ := h.stored a ha
    exact ⟨i, getElem?_snoc_eq_some.mpr (.inl hi), by simpa using hq.snoc_last (.inr rfl)⟩
  · intro j b hj
    rcases getElem?_snoc_eq_some.mp hj with hj | ⟨-, ⟨⟩⟩
    obtain ⟨i, hij, hi, hq⟩ := h.forwarded j b hj
    exact ⟨i, hij, getElem?_snoc_eq_some.mpr (.inl hi),
      hq.snoc _ (lt_length_of_getElem? hj).le⟩

/-- A store of `""`: the watchdog's, or the solution handler's between two datagrams. -/
theorem Inv.reset (h : Inv w) {o : Obs} (ho : o = .cleared ∨ o = .solution ∧ w.handler = .idle)
    (hl : w'.log = w.log ++ [o]) (hf : w'.firstSender = []) (hh : w'.handler = w.handler) :
    Inv w' := by
  have hr : o.resets = true := by rcases ho with rfl | ⟨rfl, -⟩ <;> rfl
  refine ⟨?_, ?_, ?_, ?_, ?_, ?_⟩ <;> simp only [hl, hf, hh]
  · intro i b hi
    rcases getElem?_snoc_eq_some.mp hi with hi | ⟨-, rfl⟩
    · exact h.store_ne i b hi
    · simp [Obs.resets] at hr
  · exact fun a ha => by simpa using (h.pending a ha).1
  · intro i b hi
    rcases getElem?_snoc_eq_some.mp hi with hi | ⟨-, rfl⟩
    · simpa using Or.inl (resetBetween_snoc_last hr (lt_length_of_getElem? hi))
    · simp [Obs.resets] at hr
  · intro i j b c hij hi hj hbc
    rcases getElem?_snoc_eq_some.mp hj with hj | ⟨-, rfl⟩
    · have hi' := getElem?_snoc_eq_some.mp hi |>.resolve_right
        fun ⟨he, _⟩ => by have := lt_length_of_getElem? hj; omega
      exact (h.uniform i j b c hij hi' hj hbc).snoc _ le_rfl
    · simp [Obs.resets] at hr
  · intro a ha
    rcases ho with rfl | ⟨-, hi⟩
    · obtain ⟨i, hi, hq⟩ := h.stored a ha
      exact ⟨i, getElem?_snoc_eq_some.mpr (.inl hi), by simpa using hq.snoc_last (.inl rfl)⟩
    · rcases ha with ha | ha <;> rw [hi] at ha <;> cases ha
  · intro j b hj
    rcases getElem?_snoc_eq_some.mp hj with hj | ⟨-, rfl⟩
    · obtain ⟨i, hij, hi, hq⟩ := h.forwarded j b hj
      exact ⟨i, hij, getElem?_snoc_eq_some.mpr (.inl hi),
        hq.snoc _ (lt_length_of_getElem? hj).le⟩
    · simp [Obs.resets] at hr

theorem Inv.step (h : Inv w) {e : Event} (hs : step w e = some w') : Inv w' := by
  rcases step_cases hs with ⟨hl, hf, hh⟩ | ⟨a, h₀, hl, hf, hh⟩ | ⟨a, h₀, hl, hf, hh⟩ |
      ⟨hl, hf, hh⟩ | ⟨o, ho, hl, hf, hh⟩
  · exact h.quiet hl hf hh
  · exact h.store h₀ hl hf hh
  · exact h.forward h₀ hl hf hh
  · exact h.pause hl hf hh
  · exact h.reset ho hl hf hh

theorem Reachable.inv {t : Time} (h : Reachable t w) : Inv w := by
  induction h with
  | start => exact Inv.start t
  | step _ hs ih => exact ih.step hs

/-! ### Which controller the workers follow -/

/-- **A job is handled only for the controller in `FirstSender`**: from the handler's load of
`FirstSender` to its forward, `FirstSender` holds the job's controller or nothing, whatever the
watchdog does meanwhile, so a job of another controller than a non-empty `FirstSender` is
dropped. -/
theorem pending_firstSender {t : Time} {a : GoString} (h : Reachable t w)
    (ha : w.handler.pending = some a) : w.firstSender = a ∨ w.firstSender = [] :=
  (h.inv.pending a ha).2

/-- A job from `10.0.0.1` taken four seconds after the start, stored in `FirstSender`, and then
the watchdog's clear: the handler still holds the job, and `FirstSender` is empty. -/
theorem pending_firstSender_cleared :
    ∃ w, Reachable 0 w ∧ w.handler.pending = some (controllerAddr (.ofAscii "10.0.0.1") 11048) ∧
      (w.firstSender = controllerAddr (.ofAscii "10.0.0.1") 11048 ∨ w.firstSender = []) :=
  have h : Reachable 0 _ := Reachable.start.run
    [.elapse 1000000000, .watch, .watch, .elapse 1000000000, .watch, .watch,
      .elapse 1000000000, .watch, .watch, .elapse 1000000000,
      .job (.ofAscii "10.0.0.1") 11048, .handle, .watch, .watch, .watch, .watch] rfl
  ⟨_, h, rfl, pending_firstSender h rfl⟩

/-- **A new controller only after a reset**: when a job from `a` and a later job from `b ≠ a`
are both forwarded, a solution or a watchdog clear stands between the handler's store of `a`
in `FirstSender` for the first forward (the last store before it, with only the watchdog
between them) and the forward of `b`. -/
theorem forward_switch_reset {t : Time} {a b : GoString} (h : Reachable t w) (hij : i < j)
    (hi : w.log[i]? = some (.forward a)) (hj : w.log[j]? = some (.forward b)) (hab : a ≠ b) :
    ∃ i₀ < i, w.log[i₀]? = some (.store a) ∧ Quiet w.log i₀ i ∧ ResetBetween w.log i₀ j := by
  have hinv := h.inv
  obtain ⟨i₀, hi₀, hsa, hqa⟩ := hinv.forwarded i a hi
  obtain ⟨j₀, hj₀, hsb, hq⟩ := hinv.forwarded j b hj
  -- `b`'s store comes after `a`'s: only the watchdog stands between `b`'s store and forward
  have hlt : i₀ < j₀ := by
    rcases lt_trichotomy i₀ j₀ with hlt | rfl | hgt
    · exact hlt
    · rw [hsa] at hsb; cases hsb; exact absurd rfl hab
    · rcases hq i₀ _ hgt (by omega) hsa with he | he <;> cases he
  obtain ⟨k, hk₁, hk₂, hk⟩ := hinv.uniform i₀ j₀ a b hlt hsa hsb hab
  exact ⟨i₀, hi₀, hsa, hqa, k, hk₁, by omega, hk⟩

/-- Jobs from `10.0.0.1` and then `10.0.0.2`, forwarded third and fifth: the watchdog's clear
stands between the store of `10.0.0.1`, the log's first entry, and the second forward. -/
theorem forward_switch_reset_cleared :
    ∃ w, Reachable 0 w ∧ ∃ i₀ < 3,
      w.log[i₀]? = some (.store (controllerAddr (.ofAscii "10.0.0.1") 11048)) ∧
      Quiet w.log i₀ 3 ∧ ResetBetween w.log i₀ 5 :=
  have h : Reachable 0 _ := Reachable.start.run
    [.elapse 1000000000, .watch, .watch, .elapse 1000000000, .watch, .watch,
      .elapse 1000000000, .watch, .watch, .elapse 1000000000,
      .job (.ofAscii "10.0.0.1") 11048, .handle, .watch, .watch, .watch, .watch, .handle, .handle,
      .job (.ofAscii "10.0.0.2") 11048, .handle, .handle, .handle] rfl
  ⟨_, h, forward_switch_reset h (i := 3) (j := 5) (by decide) rfl rfl (by decide)⟩

/-- **A controller switch with no reset after the first forward**: four seconds after the
start, a job from `x` is the first; the watchdog's tick lands between the handler's stores of
`FirstSender` and `lastSent`, finds `lastSent` four seconds old and clears `FirstSender`.  The
handler still forwards `x`'s job, and the next job, from `y`, is taken and forwarded with no
solution and no clear after `x`'s forward. -/
theorem forward_switch_without_reset :
    ∃ w, Reachable 0 w ∧ w.log =
      [.store (controllerAddr (.ofAscii "10.0.0.1") 11048), .cleared, .pause,
        .forward (controllerAddr (.ofAscii "10.0.0.1") 11048),
        .store (controllerAddr (.ofAscii "10.0.0.2") 11048),
        .forward (controllerAddr (.ofAscii "10.0.0.2") 11048)] :=
  ⟨_, Reachable.start.run
    [.elapse 1000000000, .watch, .watch, .elapse 1000000000, .watch, .watch,
      .elapse 1000000000, .watch, .watch, .elapse 1000000000,
      .job (.ofAscii "10.0.0.1") 11048, .handle, .watch, .watch, .watch, .watch, .handle, .handle,
      .job (.ofAscii "10.0.0.2") 11048, .handle, .handle, .handle] rfl, rfl⟩

end Pod.Kopach
