import Mathlib.Data.List.Nodup
import Pod.Rpc.Limit

/-!
# RPC — the miner process

`setgenerate` controls mining by running the node's own binary as a separate `kopach`
process.  `HandleSetGenerate` stores `Generate` and `GenThreads` (a `GenProcLimit` of `0`
turns generation off), calls `Kill` on the process of the `exec.Cmd` it keeps in
`Cfg.CPUMiner`, if any, and starts a new command when `Generate` is on and `GenThreads` is not
`0`; otherwise it forgets the command.

`Node.Start` starts a miner of its own when `Generate` is set at start-up and keeps it in
`Node.CPUMiner`.  The RPC server's `Cfg.CPUMiner` was copied from `Node.CPUMiner` in `NewNode`,
before `Start` set it, so the two never meet.  A command whose `Start` failed has no `Process`,
and `Process.Kill` on it dereferences `nil`; `net/http` recovers the panic, so the server goes
on from what the handler had written by then.

`JSONRPCRead` calls each handler in its request's goroutine, and nothing orders two
`setgenerate` handlers (`MinerServer`):

* `MinerServer.SerialReachable.minerInv`: when no two stand between `Kill` and their new
  command at once, every miner alive is the process of one of the two commands, so at most two
  run (`MinerInv.length_alive_le`);
* `setGenerate_race_leaks`: when two do, a miner is left running that no command knows.
* `minerServer_serial_ok_concurrent_leaks`: both, from every state `Node.Start` leaves.
-/

namespace Pod.Rpc

/-- An `*exec.Cmd` for the miner. -/
inductive MinerCmd where
  /-- `nil`. -/
  | none
  /-- A command whose `Start` failed: its `Process` is `nil`. -/
  | notStarted
  /-- A command whose `Start` ran process `pid`. -/
  | started (pid : Nat)
  deriving DecidableEq, Repr

/-- The process a command runs, as a list of at most one. -/
def MinerCmd.pids : MinerCmd → List Nat
  | .started pid => [pid]
  | _ => []

/-- The node's mining state: `*Config.Generate`, `*Config.GenThreads`, `Node.CPUMiner`, the RPC
server's `Cfg.CPUMiner`, the miner processes alive, and the id the next process gets. -/
structure MinerState where
  generate : Bool
  genThreads : Int
  nodeMiner : MinerCmd
  rpcMiner : MinerCmd
  alive : List Nat
  nextPid : Nat
  deriving DecidableEq, Repr

/-- `NewNode`: no miner yet, and the RPC server's `Cfg.CPUMiner` copies the node's `nil`. -/
def MinerState.init (generate : Bool) (genThreads : Int) : MinerState :=
  ⟨generate, genThreads, .none, .none, [], 0⟩

/-- Miner process `pid` ends: it exited by itself, or `Kill` ended it. -/
def MinerState.exit (s : MinerState) (pid : Nat) : MinerState :=
  { s with alive := s.alive.filter (· != pid) }

/-- `exec.Command(os.Args[0], "-D", *DataDir, "kopach")` and `Start()`: when `ok` the command
runs as the next process; otherwise its `Process` stays `nil`. -/
def MinerState.start (s : MinerState) (ok : Bool) : MinerCmd × MinerState :=
  if ok then (.started s.nextPid, { s with alive := s.nextPid :: s.alive, nextPid := s.nextPid + 1 })
  else (.notStarted, s)

/-- `cmd.Process.Kill()`: the nil pointer dereference, with the state at that point, when `cmd`
or its `Process` is `nil`.  `Kill` of a process that has exited only returns an error, which the
callers log or drop. -/
def MinerState.kill (s : MinerState) : MinerCmd → Except MinerState MinerState
  | .started pid => .ok (s.exit pid)
  | _ => .error s

/-- The miner part of `Node.Start`: with `Generate` set, start a miner into `Node.CPUMiner`. -/
def MinerState.nodeStart (s : MinerState) (ok : Bool) : MinerState :=
  if s.generate then
    let (cmd, s) := s.start ok
    { s with nodeMiner := cmd }
  else s

/-- `btcjson.SetGenerateCmd`. -/
structure SetGenerateCmd where
  generate : Bool
  genProcLimit : Option Int
  deriving DecidableEq, Repr

/-- The `Generate` and `GenThreads` a `setgenerate` stores (`save.Pod` writes them to the
configuration file, which is not modelled). -/
def setGenerateConfig (s : MinerState) (c : SetGenerateCmd) : MinerState :=
  let genProcLimit := c.genProcLimit.getD s.genThreads
  { s with generate := if genProcLimit = 0 then false else c.generate, genThreads := genProcLimit }

/-- The end of `HandleSetGenerate`: a new command when `Generate && GenThreads != 0`, else
`nil`. -/
def relaunch (s : MinerState) (startOk : Bool) : MinerState :=
  if s.generate && s.genThreads != 0 then
    let (cmd, s) := s.start startOk
    { s with rpcMiner := cmd }
  else { s with rpcMiner := .none }

/-- The first half of `HandleSetGenerate`: store the configuration, then `Kill` the process of
`Cfg.CPUMiner` if it is not `nil`. -/
def setGenerateKill (s : MinerState) (c : SetGenerateCmd) : Except MinerState MinerState :=
  let s := setGenerateConfig s c
  if s.rpcMiner != .none then s.kill s.rpcMiner else pure s

section

variable {s s' : MinerState}

@[simp] theorem setGenerateConfig_rpcMiner (c : SetGenerateCmd) :
    (setGenerateConfig s c).rpcMiner = s.rpcMiner := rfl

/-- `setGenerateKill` by the command it finds: `Kill` panics on a command that did not start. -/
theorem setGenerateKill_eq (s : MinerState) (c : SetGenerateCmd) :
    setGenerateKill s c =
      match s.rpcMiner with
      | .none => .ok (setGenerateConfig s c)
      | .notStarted => .error (setGenerateConfig s c)
      | .started pid => .ok ((setGenerateConfig s c).exit pid) := by
  obtain ⟨_, _, _, r, _, _⟩ := s
  cases r <;> rfl

/-- What `setgenerate` and `Node.Start` keep: every miner alive is the process of one of the
two commands, the processes differ, and ids are not reused. -/
structure MinerInv (s : MinerState) : Prop where
  alive_tracked : ∀ p ∈ s.alive, s.nodeMiner = .started p ∨ s.rpcMiner = .started p
  nodup : s.alive.Nodup
  node_lt : ∀ p, s.nodeMiner = .started p → p < s.nextPid
  rpc_lt : ∀ p, s.rpcMiner = .started p → p < s.nextPid
  node_ne_rpc : ∀ p, s.nodeMiner = .started p → s.rpcMiner ≠ .started p

theorem MinerInv.lt_nextPid (h : MinerInv s) {p : Nat} (hp : p ∈ s.alive) : p < s.nextPid :=
  (h.alive_tracked p hp).elim (h.node_lt p) (h.rpc_lt p)

/-- At most two miners run: the start-up one and the RPC server's. -/
theorem MinerInv.length_alive_le (h : MinerInv s) : s.alive.length ≤ 2 := by
  have hsub : s.alive ⊆ s.nodeMiner.pids ++ s.rpcMiner.pids := fun p hp => by
    rcases h.alive_tracked p hp with hn | hr
    · simp [hn, MinerCmd.pids]
    · simp [hr, MinerCmd.pids]
  have hlen : ∀ c : MinerCmd, c.pids.length ≤ 1 := fun c => by cases c <;> simp [MinerCmd.pids]
  calc s.alive.length ≤ (s.nodeMiner.pids ++ s.rpcMiner.pids).length :=
        (List.subperm_of_subset h.nodup hsub).length_le
    _ ≤ 2 := by rw [List.length_append]; have := hlen s.nodeMiner; have := hlen s.rpcMiner; omega

theorem minerInv_nodeStart (g : Bool) (t : Int) (ok : Bool) :
    MinerInv ((MinerState.init g t).nodeStart ok) := by
  unfold MinerState.nodeStart MinerState.start MinerState.init
  split <;> cases ok <;>
    exact ⟨by simp, by simp, by simp, by simp, by simp⟩

theorem MinerInv.exit (h : MinerInv s) (pid : Nat) : MinerInv (s.exit pid) where
  alive_tracked p hp := h.alive_tracked p (List.mem_of_mem_filter hp)
  nodup := h.nodup.filter _
  node_lt := h.node_lt
  rpc_lt := h.rpc_lt
  node_ne_rpc := h.node_ne_rpc

/-- `setgenerate`'s configuration touches no miner. -/
theorem MinerInv.setGenerateConfig (h : MinerInv s) (c : SetGenerateCmd) :
    MinerInv (setGenerateConfig s c) :=
  ⟨h.alive_tracked, h.nodup, h.node_lt, h.rpc_lt, h.node_ne_rpc⟩

/-- After a `Kill` that returned, the invariant holds and the old miner is gone. -/
theorem MinerInv.setGenerateKill_ok (h : MinerInv s) {c : SetGenerateCmd}
    (hk : setGenerateKill s c = .ok m) :
    MinerInv m ∧ ∀ p, m.rpcMiner = .started p → p ∉ m.alive := by
  have hc := h.setGenerateConfig c
  rw [setGenerateKill_eq] at hk
  cases hr : s.rpcMiner with
  | none =>
    simp only [hr, Except.ok.injEq] at hk
    subst hk
    exact ⟨hc, fun p hp => by simp [hr] at hp⟩
  | notStarted => simp [hr] at hk
  | started q =>
    simp only [hr, Except.ok.injEq] at hk
    subst hk
    refine ⟨hc.exit q, fun p hp hm => ?_⟩
    have hp : q = p := by simpa [MinerState.exit, hr] using hp
    simp [MinerState.exit, hp] at hm

theorem MinerInv.setGenerateKill_error (h : MinerInv s) {c : SetGenerateCmd}
    (hk : setGenerateKill s c = .error m) : MinerInv m ∧ m.rpcMiner = .notStarted := by
  rw [setGenerateKill_eq] at hk
  cases hr : s.rpcMiner <;> simp only [hr, reduceCtorEq, Except.error.injEq] at hk
  subst hk
  exact ⟨h.setGenerateConfig c, hr⟩

/-- A new command for the RPC server keeps the invariant once its old miner is gone. -/
theorem MinerInv.relaunch (h : MinerInv s) (hk : ∀ p, s.rpcMiner = .started p → p ∉ s.alive)
    (ok : Bool) : MinerInv (relaunch s ok) := by
  have hnode : ∀ p ∈ s.alive, s.nodeMiner = .started p := fun p hp =>
    (h.alive_tracked p hp).resolve_right fun hr => hk p hr hp
  have forget : ∀ c : MinerCmd, (∀ p, c ≠ .started p) → MinerInv { s with rpcMiner := c } :=
    fun c hc => ⟨fun p hp => .inl (hnode p hp), h.nodup, h.node_lt,
      fun p hp => absurd hp (hc p), fun p _ hp => hc p hp⟩
  unfold Pod.Rpc.relaunch MinerState.start
  split
  · cases ok
    · exact forget _ nofun
    · refine ⟨?_, ?_, ?_, ?_, ?_⟩
      · intro p hp
        rcases List.mem_cons.mp hp with rfl | hp
        · exact .inr rfl
        · exact .inl (hnode p hp)
      · exact List.nodup_cons.mpr ⟨fun hn => (h.lt_nextPid hn).false, h.nodup⟩
      · exact fun p hp => Nat.lt_succ_of_lt (h.node_lt p hp)
      · intro p hp; cases hp; exact Nat.lt_succ_self _
      · intro p hp hr; cases hr; exact (h.node_lt _ hp).false
  · exact forget _ nofun

/-- `Node.Start` leaves the RPC server's command `nil`. -/
theorem nodeStart_rpcMiner (g : Bool) (t : Int) (ok : Bool) :
    ((MinerState.init g t).nodeStart ok).rpcMiner = .none := by
  unfold MinerState.nodeStart MinerState.start MinerState.init
  split <;> cases ok <;> rfl

end

/-! ### Handlers that interleave

`JSONRPCRead` calls the handler in the request's own goroutine, and nothing orders two
`setgenerate` handlers: between one's `Kill` and the command it sets, another can run.  Each
handler here takes two atomic steps, `setGenerateKill` and `relaunch`; a finer split only adds
interleavings. -/

/-- Where one `setgenerate` handler stands. -/
inductive SetGenPhase where
  /-- Before it stores the configuration and calls `Kill`. -/
  | arrived (c : SetGenerateCmd)
  /-- `Kill` returned; the new command is not set. -/
  | killed
  /-- Returned, or panicked in `Kill`. -/
  | returned
  deriving DecidableEq, Repr

/-- The miners, and the `setgenerate` handler of each request the RPC server has received. -/
structure MinerServer where
  miner : MinerState
  handlers : List SetGenPhase
  deriving Repr

/-- A request arrives, a handler takes a step (`launch` with whether `Start` succeeds), or a
miner process ends. -/
inductive MinerServer.Event where
  | request (c : SetGenerateCmd)
  | kill (i : Nat)
  | launch (i : Nat) (startOk : Bool)
  | exit (pid : Nat)

/-- The step `e`; `none` when handler `i` is not where the step starts. -/
def MinerServer.step (t : MinerServer) : MinerServer.Event → Option MinerServer
  | .request c => some ⟨t.miner, t.handlers ++ [.arrived c]⟩
  | .kill i =>
    match t.handlers[i]? with
    | some (.arrived c) =>
      match setGenerateKill t.miner c with
      | .ok m => some ⟨m, t.handlers.set i .killed⟩
      | .error m => some ⟨m, t.handlers.set i .returned⟩
    | _ => none
  | .launch i ok =>
    if t.handlers[i]? = some .killed then some ⟨relaunch t.miner ok, t.handlers.set i .returned⟩
    else none
  | .exit pid => some ⟨t.miner.exit pid, t.handlers⟩

/-- The events `es` one after the other; `none` when one of them cannot be taken. -/
def MinerServer.run (t : MinerServer) (es : List MinerServer.Event) : Option MinerServer :=
  es.foldlM MinerServer.step t

/-- The runs in which no two handlers stand between `Kill` and their new command at once, as
when `setgenerate` requests come one at a time. -/
inductive MinerServer.SerialReachable (m₀ : MinerState) : MinerServer → Prop where
  | init : MinerServer.SerialReachable m₀ ⟨m₀, []⟩
  | step {t t' : MinerServer} {e : MinerServer.Event} : MinerServer.SerialReachable m₀ t →
      t.step e = some t' → t'.handlers.count .killed ≤ 1 → MinerServer.SerialReachable m₀ t'

section

variable {s m : MinerState} {t t' : MinerServer} {e : MinerServer.Event}

/-- Every step, with its guard. -/
theorem MinerServer.step_cases (h : t.step e = some t') :
    (∃ c, t' = ⟨t.miner, t.handlers ++ [.arrived c]⟩) ∨
    (∃ i c m, t.handlers[i]? = some (.arrived c) ∧ setGenerateKill t.miner c = .ok m ∧
      t' = ⟨m, t.handlers.set i .killed⟩) ∨
    (∃ i c m, t.handlers[i]? = some (.arrived c) ∧ setGenerateKill t.miner c = .error m ∧
      t' = ⟨m, t.handlers.set i .returned⟩) ∨
    (∃ i ok, t.handlers[i]? = some .killed ∧ t' = ⟨relaunch t.miner ok, t.handlers.set i .returned⟩) ∨
    ∃ pid, t' = ⟨t.miner.exit pid, t.handlers⟩ := by
  cases e with
  | request c => exact .inl ⟨c, (Option.some.inj h).symm⟩
  | kill i =>
    simp only [MinerServer.step] at h
    split at h <;> try cases h
    rename_i c hi
    split at h <;> cases h
    · exact .inr (.inl ⟨i, c, _, hi, ‹_›, rfl⟩)
    · exact .inr (.inr (.inl ⟨i, c, _, hi, ‹_›, rfl⟩))
  | launch i ok =>
    simp only [MinerServer.step] at h
    split at h
    · exact .inr (.inr (.inr (.inl ⟨i, ok, ‹_›, (Option.some.inj h).symm⟩)))
    · cases h
  | exit pid => exact .inr (.inr (.inr (.inr ⟨pid, (Option.some.inj h).symm⟩)))

/-- What serial runs keep: the invariant, at most one handler between `Kill` and its new
command, and while one stands there, the old miner is gone. -/
structure ServerInv (t : MinerServer) : Prop where
  inv : MinerInv t.miner
  killed_le : t.handlers.count .killed ≤ 1
  killed_gone : SetGenPhase.killed ∈ t.handlers →
    ∀ p, t.miner.rpcMiner = .started p → p ∉ t.miner.alive

theorem ServerInv.step (h : ServerInv t) (hs : t.step e = some t')
    (hser : t'.handlers.count .killed ≤ 1) : ServerInv t' := by
  rcases MinerServer.step_cases hs with
    ⟨c, rfl⟩ | ⟨i, c, m, hi, hk, rfl⟩ | ⟨i, c, m, hi, hk, rfl⟩ | ⟨i, ok, hi, rfl⟩ | ⟨pid, rfl⟩
  · exact ⟨h.inv, hser, fun hm => h.killed_gone (by simpa using hm)⟩
  · exact ⟨(h.inv.setGenerateKill_ok hk).1, hser, fun _ => (h.inv.setGenerateKill_ok hk).2⟩
  · obtain ⟨hinv, hr⟩ := h.inv.setGenerateKill_error hk
    exact ⟨hinv, hser, fun _ p hp => absurd (hr.symm.trans hp) nofun⟩
  · -- the only handler between `Kill` and its command sets it
    have hc := count_set_add hi .returned .killed
    simp only [reduceCtorEq, if_false, if_true] at hc
    have h0 : (t.handlers.set i .returned).count .killed = 0 := by have := h.killed_le; omega
    exact ⟨h.inv.relaunch (h.killed_gone (List.getElem?_mem hi)) ok, hser,
      fun hm => absurd h0 (List.count_pos_iff.mpr hm).ne'⟩
  · exact ⟨h.inv.exit pid, hser,
      fun hm p hp hm' => h.killed_gone hm p hp (List.mem_of_mem_filter hm')⟩

/-- **Serial runs keep the invariant**: when no two `setgenerate` handlers stand between `Kill`
and their new command at once, every miner alive is the process of one of the two commands. -/
theorem MinerServer.SerialReachable.minerInv {m₀ : MinerState} (h₀ : MinerInv m₀)
    (h : MinerServer.SerialReachable m₀ t) : MinerInv t.miner := by
  suffices ServerInv t from this.inv
  induction h with
  | init => exact ⟨h₀, by simp, by simp⟩
  | step _ hs hser ih => exact ih.step hs hser

/-- `relaunch` of a configuration with generation on, and a `Start` that succeeds. -/
theorem relaunch_of_generate (hg : s.generate = true) (ht : s.genThreads ≠ 0) :
    relaunch s true = ⟨s.generate, s.genThreads, s.nodeMiner, .started s.nextPid,
      s.nextPid :: s.alive, s.nextPid + 1⟩ := by
  simp [relaunch, MinerState.start, hg, ht]

/-- A `Kill` that does not panic stores the configuration and leaves both commands and the next
id as they were. -/
theorem setGenerateKill_of_ne (hr : s.rpcMiner ≠ .notStarted) (c : SetGenerateCmd) :
    ∃ m, setGenerateKill s c = .ok m ∧ m.rpcMiner = s.rpcMiner ∧ m.nodeMiner = s.nodeMiner ∧
      m.nextPid = s.nextPid ∧ m.generate = (setGenerateConfig s c).generate ∧
      m.genThreads = (setGenerateConfig s c).genThreads := by
  rw [setGenerateKill_eq]
  cases hr' : s.rpcMiner with
  | none => exact ⟨_, rfl, hr', rfl, rfl, rfl, rfl⟩
  | notStarted => exact absurd hr' hr
  | started q => exact ⟨_, rfl, hr', rfl, rfl, rfl, rfl⟩

/-- **Two `setgenerate` handlers leak a miner**: from any state whose command can be killed, a
request `c`, then one that turns generation on, both calling `Kill` before either sets its
command, the second setting its own first, leave the miner it started running with no command
that knows it: no later `setgenerate` kills it. -/
theorem setGenerate_race_leaks (h : MinerInv s) (hr : s.rpcMiner ≠ .notStarted)
    (c : SetGenerateCmd) {n : Int} (hn : n ≠ 0) :
    ∃ u, (⟨s, []⟩ : MinerServer).run [.request c, .request ⟨true, some n⟩, .kill 0, .kill 1,
        .launch 1 true, .launch 0 true] = some u ∧
      s.nextPid ∈ u.miner.alive ∧ u.miner.nodeMiner ≠ .started s.nextPid ∧
      u.miner.rpcMiner ≠ .started s.nextPid := by
  obtain ⟨m₁, hk₁, hr₁, hn₁, hp₁, -, -⟩ := setGenerateKill_of_ne hr c
  obtain ⟨m₂, hk₂, -, hn₂, hp₂, hg₂, ht₂⟩ := setGenerateKill_of_ne (hr₁ ▸ hr) ⟨true, some n⟩
  have hg : m₂.generate = true := by simp [hg₂, setGenerateConfig, hn]
  have ht : m₂.genThreads ≠ 0 := ht₂ ▸ hn
  -- both handlers `Kill` the old command, then each sets its own
  have hrun : (⟨s, []⟩ : MinerServer).run [.request c, .request ⟨true, some n⟩, .kill 0, .kill 1,
      .launch 1 true, .launch 0 true] =
        some ⟨relaunch (relaunch m₂ true) true, [.returned, .returned]⟩ := by
    simp only [MinerServer.run, List.foldlM, MinerServer.step, List.nil_append, List.cons_append,
      List.getElem?_cons_zero, List.getElem?_cons_succ, hk₁, hk₂, List.set_cons_zero,
      List.set_cons_succ, Option.some_bind, bind, Option.bind, if_true]
    rfl
  have h₅ := relaunch_of_generate hg ht
  have h₆ := relaunch_of_generate (s := relaunch m₂ true) (by rw [h₅]; exact hg) (by rw [h₅]; exact ht)
  refine ⟨_, hrun, ?_⟩
  rw [h₆, h₅]
  simp only [hp₂, hp₁, hn₂, hn₁]
  exact ⟨List.mem_cons_of_mem _ (List.mem_cons_self _ _), fun hs => (h.node_lt _ hs).false,
    by simp⟩

/-- **`setgenerate` is safe only one request at a time**: from the miners `Node.Start` leaves,
whatever the configuration and whether its miner started, every run in which no two
`setgenerate` handlers stand between `Kill` and their new command at once keeps every miner
alive the process of one of the two commands, so at most two run; but two handlers that both
`Kill` before either sets its command, the second turning generation on, leave a miner running
that no command knows. -/
theorem minerServer_serial_ok_concurrent_leaks (g : Bool) (t : Int) (ok : Bool) :
    (∀ u, MinerServer.SerialReachable ((MinerState.init g t).nodeStart ok) u →
      MinerInv u.miner ∧ u.miner.alive.length ≤ 2) ∧
    ∀ (c : SetGenerateCmd) (n : Int), n ≠ 0 →
      ∃ u, (⟨(MinerState.init g t).nodeStart ok, []⟩ : MinerServer).run [.request c,
          .request ⟨true, some n⟩, .kill 0, .kill 1, .launch 1 true, .launch 0 true] = some u ∧
        ((MinerState.init g t).nodeStart ok).nextPid ∈ u.miner.alive ∧
        u.miner.nodeMiner ≠ .started ((MinerState.init g t).nodeStart ok).nextPid ∧
        u.miner.rpcMiner ≠ .started ((MinerState.init g t).nodeStart ok).nextPid := by
  have h₀ := minerInv_nodeStart g t ok
  exact ⟨fun u hu => ⟨hu.minerInv h₀, (hu.minerInv h₀).length_alive_le⟩,
    fun c n hn => setGenerate_race_leaks h₀ (by rw [nodeStart_rpcMiner]; nofun) c hn⟩

/-- Started with `Generate`, a `setgenerate` that starts a miner and then one that turns
generation off, one after the other, leave the start-up miner alone; sent at once, the second
turning generation on with a limit of `1`, they leak the miner of process `1`. -/
theorem minerServer_twoRequests :
    MinerServer.SerialReachable ((MinerState.init true 1).nodeStart true)
        ⟨⟨false, 2, .started 0, .none, [0], 2⟩, [.returned, .returned]⟩ ∧
      (MinerInv ⟨false, 2, .started 0, .none, [0], 2⟩ ∧ [0].length ≤ 2) ∧
      ∃ u, (⟨(MinerState.init true 1).nodeStart true, []⟩ : MinerServer).run
          [.request ⟨false, none⟩, .request ⟨true, some 1⟩, .kill 0, .kill 1, .launch 1 true,
            .launch 0 true] = some u ∧
        1 ∈ u.miner.alive ∧ u.miner.nodeMiner ≠ .started 1 ∧ u.miner.rpcMiner ≠ .started 1 := by
  have h : MinerServer.SerialReachable ((MinerState.init true 1).nodeStart true)
      ⟨⟨false, 2, .started 0, .none, [0], 2⟩, [.returned, .returned]⟩ :=
    .step (e := .launch 1 true) (.step (e := .kill 1) (.step (e := .request ⟨false, none⟩)
      (.step (e := .launch 0 true) (.step (e := .kill 0) (.step (e := .request ⟨true, some 2⟩)
        .init rfl (by decide)) rfl (by decide)) rfl (by decide)) rfl (by decide)) rfl (by decide))
      rfl (by decide)
  exact ⟨h, (minerServer_serial_ok_concurrent_leaks true 1 true).1 _ h,
    (minerServer_serial_ok_concurrent_leaks true 1 true).2 ⟨false, none⟩ 1 (by decide)⟩

end

end Pod.Rpc
