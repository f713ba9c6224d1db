import Pod.Support.Go

/-!
# GBT — the `getblocktemplate` work state

`GBTWorkState` keeps the block template that `getblocktemplate` serves and the long-poll
channels waiting for it to go stale, `NotifyMap`: by the previous-block hash and the second the
template was generated, the channel its waiters block on.  `UpdateBlockTemplate` builds a new
template when the tip moved or the mempool changed long enough ago, and otherwise refreshes the
one it has; `NotifyLongPollers` closes and deletes the channels of stale templates;
`TemplateUpdateChan` registers a long poll.

The model runs each section the code runs under the work state's mutex as one step (`Step`),
with what the section reads from outside the work state (`Env`) free at every step: the tip,
the mempool's last update, the clock, the random draw, and what `NewBlockTemplate`,
`PayToAddrScript` and `UpdateBlockTime` return.  The Go runtime's part is the set of closed
channels and the next channel `make` returns; closing a closed channel panics (`none`).

The mining package is not part of this repository: `NewBlockTemplate` is an arbitrary function
in `Env`, and `UpdateBlockTime` an arbitrary new timestamp and difficulty for the header.
-/

namespace Pod.Gbt

open Pod

/-- A block hash. -/
abbrev Hash := Nat

/-- A `chan struct{}` made by `TemplateUpdateChan`, named by the order it was made in. -/
abbrev Chan := Nat

/-- A configured mining address. -/
abbrev Address := Nat

/-- `GBTRegenerateSeconds`. -/
def gbtRegenerateSeconds : Int := 60

/-- A `wire.MsgTx`: the scripts of its outputs, and the rest of it. -/
structure MsgTx where
  body : Nat
  pkScripts : List GoString
  deriving DecidableEq, Repr

/-- The fields of `wire.BlockHeader` the work state reads or writes. -/
structure BlockHeader where
  prevBlock : Hash
  merkleRoot : Hash
  timestamp : Time
  bits : UInt32
  nonce : UInt32
  deriving DecidableEq, Repr

/-- A `mining.BlockTemplate`: its block, and whether the coinbase pays a configured address. -/
structure BlockTemplate where
  header : BlockHeader
  transactions : List MsgTx
  validPayAddress : Bool
  deriving DecidableEq, Repr

/-- `NotifyMap`: by previous-block hash, then by the template's generation second, a channel. -/
abbrev NotifyMap := GoMap Hash (GoMap Int Chan)

/-- The fields of `GBTWorkState` behind its mutex. -/
structure GBTWorkState where
  lastTxUpdate : Time
  lastGenerated : Time
  prevHash : Option Hash
  minTimestamp : Time
  template : Option BlockTemplate
  notifyMap : NotifyMap

/-- `NewGbtWorkState`. -/
def GBTWorkState.new : GBTWorkState :=
  ⟨Time.zero, Time.zero, none, Time.zero, none, ∅⟩

/-- The work state, with the channels closed so far and the next channel `make` returns. -/
structure Work where
  state : GBTWorkState
  closed : List Chan
  nextChan : Chan

def Work.init : Work := ⟨GBTWorkState.new, [], 0⟩

/-- What one locked section reads from outside the work state. -/
structure Env where
  /-- `s.Cfg.Chain.BestSnapshot().Hash`. -/
  tip : Hash
  /-- `generator.GetTxSource().LastUpdated()`. -/
  txLastUpdated : Time
  /-- `time.Now()` before a template is generated. -/
  now : Time
  /-- `time.Now()` once `NewBlockTemplate` returned. -/
  generatedAt : Time
  /-- `mining.MinimumMedianTime(best)`. -/
  medianTime : Time
  /-- The random source's draw behind `rand.Intn`. -/
  draw : Nat
  newBlockTemplate : Option Address → Except String BlockTemplate
  payToAddrScript : Address → Except String GoString
  /-- The header's timestamp and difficulty once `UpdateBlockTime` ran. -/
  updateBlockTime : BlockHeader → Time × UInt32

/-! ### Channels -/

/-- `close(c)`; closing a closed channel panics. -/
def closeChan (c : Chan) (closed : List Chan) : Option (List Chan) :=
  if c ∈ closed then none else some (c :: closed)

/-- `close` on each channel in turn. -/
def closeAll : List Chan → List Chan → Option (List Chan)
  | [], closed => some closed
  | c :: cs, closed => (closeChan c closed).bind (closeAll cs)

/-- The values of a map, in iteration order. -/
def GoMap.values {κ V : Type} [DecidableEq κ] (m : GoMap κ V) : List V :=
  m.entries.map Sigma.snd

/-- A `range` over the entries `l` of the map `m` that closes the channels of each entry whose
key `p` picks and deletes the entry. -/
def closeEntries {κ V : Type} [DecidableEq κ] (p : κ → Bool) (chansOf : V → List Chan) :
    List (Σ _ : κ, V) → GoMap κ V → List Chan → Option (GoMap κ V × List Chan)
  | [], m, closed => some (m, closed)
  | ⟨k, v⟩ :: rest, m, closed =>
    if p k then
      (closeAll (chansOf v) closed).bind fun closed => closeEntries p chansOf rest (m.erase k) closed
    else closeEntries p chansOf rest m closed

/-- `NotifyLongPollers`' first loop: the channels of every other hash than `latestHash`. -/
def closeStale (latestHash : Hash) (m : NotifyMap) (closed : List Chan) :
    Option (NotifyMap × List Chan) :=
  closeEntries (fun hash => hash != latestHash) GoMap.values m.entries m closed

/-- `NotifyLongPollers`' second loop: the channels of `latestHash` from before
`lastGeneratedUnix`. -/
def closeOlder (lastGeneratedUnix : Int) (channels : GoMap Int Chan) (closed : List Chan) :
    Option (GoMap Int Chan × List Chan) :=
  closeEntries (fun lastGen => decide (lastGen < lastGeneratedUnix)) (fun c => [c])
    channels.entries channels closed

/-- `NotifyLongPollers` after its first loop: unless `lastGenerated` is zero, the second loop
over the channels of `latestHash`, whose entry goes when it is left empty. -/
def notifyAtTip (latestHash : Hash) (lastGenerated : Time) (m : NotifyMap) (closed : List Chan) :
    Option (NotifyMap × List Chan) :=
  if lastGenerated.isZero then some (m, closed)
  else
    match m.lookup latestHash with
    | none => some (m, closed)
    | some channels =>
      (closeOlder (Time.unix lastGenerated) channels closed).map fun (channels, closed) =>
        (if GoMap.len channels = 0 then m.erase latestHash else m.insert latestHash channels, closed)

/-- `NotifyLongPollers`: the new `NotifyMap` and the closed channels. -/
def notifyLongPollers (latestHash : Hash) (lastGenerated : Time) (m : NotifyMap)
    (closed : List Chan) : Option (NotifyMap × List Chan) :=
  (closeStale latestHash m closed).bind fun (m, closed) => notifyAtTip latestHash lastGenerated m closed

/-- `TemplateUpdateChan`: the channel for a template, made and registered if there is none. -/
def templateUpdateChan (prevHash : Hash) (lastGenerated : Int) (g : Work) : Work × Chan :=
  let channels := (g.state.notifyMap.lookup prevHash).getD ∅
  match channels.lookup lastGenerated with
  | some c => (g, c)
  | none =>
    let c := g.nextChan
    ({ g with
      state := { g.state with
        notifyMap := g.state.notifyMap.insert prevHash (channels.insert lastGenerated c) }
      nextChan := c + 1 }, c)

/-! ### `UpdateBlockTemplate` -/

/-- `ActiveMiningAddrs[rand.Intn(len(ActiveMiningAddrs))]`; `rand.Intn(0)` panics. -/
def pickAddr (addrs : List Address) (draw : Nat) : Option Address :=
  if addrs.length = 0 then none else addrs[draw % addrs.length]?

/-- `Transactions[0].TxOut[0].PkScript = pkScript`, a panic when either index is out of
range. -/
def setCoinbaseScript (txs : List MsgTx) (pkScript : GoString) : Option (List MsgTx) :=
  match txs with
  | tx :: rest =>
    match tx.pkScripts with
    | _ :: outs => some ({ tx with pkScripts := pkScript :: outs } :: rest)
    | [] => none
  | [] => none

/-- The mempool's last update, or the time when it never changed. -/
def Env.lastTxUpdate (env : Env) : Time :=
  if env.txLastUpdated.isZero then env.now else env.txLastUpdated

/-- `UpdateBlockTemplate`'s test for a new template, once it has one. -/
def needsNewTemplate (state : GBTWorkState) (latestHash : Hash) (lastTxUpdate now : Time) : Bool :=
  state.prevHash != some latestHash ||
    (state.lastTxUpdate != lastTxUpdate &&
      decide (now > state.lastGenerated + gbtRegenerateSeconds * Time.second))

/-- The message `UpdateBlockTemplate` returns when `NewBlockTemplate` fails. -/
def newTemplateFailed (e : String) : String :=
  "(rpcserver.go) Failed to create new block template: " ++ e

section Update

variable (merkleRoot : List MsgTx → Hash) (env : Env) (addrs : List Address)
  (useCoinbaseValue : Bool)

/-- `UpdateBlockTemplate`'s branch that generates a new template. -/
def regenerate (g : Work) : Option (Work × Option String) :=
  let state := { g.state with prevHash := none }
  let payAddr : Option (Option Address) :=
    if !useCoinbaseValue then (pickAddr addrs env.draw).map some else some none
  payAddr.bind fun payAddr =>
    match env.newBlockTemplate payAddr with
    | .error e => some ({ g with state }, some (newTemplateFailed e))
    | .ok template =>
      let state := { state with
        template := some template
        lastGenerated := env.generatedAt
        lastTxUpdate := env.lastTxUpdate
        prevHash := some env.tip
        minTimestamp := env.medianTime }
      (notifyLongPollers env.tip env.lastTxUpdate state.notifyMap g.closed).map
        fun (notifyMap, closed) => ({ g with state := { state with notifyMap }, closed }, none)

/-- `UpdateBlockTemplate`'s branch that keeps the template: it pays a configured address from
the coinbase if asked to and not done yet, then refreshes the header's time and nonce. -/
def refreshTemplate (template : BlockTemplate) (g : Work) : Option (Work × Option String) :=
  let paid : Option (Except String BlockTemplate) :=
    if !useCoinbaseValue && !template.validPayAddress then
      (pickAddr addrs env.draw).bind fun payToAddr =>
        match env.payToAddrScript payToAddr with
        | .error e => some (.error e)
        | .ok pkScript =>
          (setCoinbaseScript template.transactions pkScript).map fun txs =>
            .ok { template with
              transactions := txs
              validPayAddress := true
              header := { template.header with merkleRoot := merkleRoot txs } }
    else some (.ok template)
  paid.map fun
    | .error e => (g, some e)
    | .ok template =>
      let (timestamp, bits) := env.updateBlockTime template.header
      let header := { template.header with timestamp, bits, nonce := 0 }
      ({ g with state := { g.state with template := some { template with header } } }, none)

/-- `UpdateBlockTemplate`: the new state and the error it returns. -/
def updateBlockTemplate (g : Work) : Option (Work × Option String) :=
  match g.state.template with
  | none => regenerate env addrs useCoinbaseValue g
  | some template =>
    if needsNewTemplate g.state env.tip env.lastTxUpdate env.now then
      regenerate env addrs useCoinbaseValue g
    else refreshTemplate merkleRoot env addrs useCoinbaseValue template g

/-- `HandleGetBlockTemplateRequest`'s check that a full coinbase has an address to pay. -/
def coinbaseCheck : Option String :=
  if !useCoinbaseValue && addrs.isEmpty then
    some ("A coinbase transaction has been requested, but the server has not been " ++
      "configured with any payment addresses via --miningaddr")
  else none

/-- `HandleGetBlockTemplateLongPoll` up to the wait: `UpdateBlockTemplate`, and the channel
for the template the long-poll ID names when it is the current one.  An ID that does not
decode is `none`. -/
def handleGetBlockTemplateLongPoll (longPollID : Option (Hash × Int)) (g : Work) : Option Work :=
  (updateBlockTemplate merkleRoot env addrs useCoinbaseValue g).bind fun (g, err) =>
    match err, longPollID with
    | some _, _ | none, none => some g
    | none, some (prevHash, lastGenerated) =>
      g.state.template.map fun template =>
        if prevHash ≠ template.header.prevBlock ∨ lastGenerated ≠ Time.unix g.state.lastGenerated
        then g
        else (templateUpdateChan prevHash lastGenerated g).1

end Update

/-- The long poll's locked section is `UpdateBlockTemplate`, then perhaps a registration. -/
theorem handleGetBlockTemplateLongPoll_cases {merkleRoot : List MsgTx → Hash} {env : Env}
    {addrs : List Address} {useCoinbaseValue : Bool} {longPollID : Option (Hash × Int)} {w w' : Work}
    (h : handleGetBlockTemplateLongPoll merkleRoot env addrs useCoinbaseValue longPollID w =
      some w') :
    ∃ w₁ err, updateBlockTemplate merkleRoot env addrs useCoinbaseValue w = some (w₁, err) ∧
      (w' = w₁ ∨ ∃ prevHash lastGenerated, w' = (templateUpdateChan prevHash lastGenerated w₁).1) := by
  unfold handleGetBlockTemplateLongPoll at h
  obtain ⟨⟨w₁, err⟩, hu, h⟩ := Option.bind_eq_some.mp h
  refine ⟨w₁, err, hu, ?_⟩
  rcases err with _ | e <;> rcases longPollID with _ | ⟨prevHash, lastGenerated⟩ <;> dsimp only at h
  · cases h; exact .inl rfl
  · obtain ⟨t, -, he⟩ := Option.map_eq_some'.mp h
    split at he <;> cases he
    · exact .inl rfl
    · exact .inr ⟨prevHash, lastGenerated, rfl⟩
  all_goals cases h; exact .inl rfl

/-- `NotifyMempoolTx`'s goroutine. -/
def notifyMempoolTx (lastUpdated now : Time) (g : Work) : Option Work :=
  match g.state.prevHash with
  | none => some g
  | some prevHash =>
    if g.state.lastGenerated.isZero then some g
    else if now > g.state.lastGenerated + gbtRegenerateSeconds * Time.second then
      (notifyLongPollers prevHash lastUpdated g.state.notifyMap g.closed).map
        fun (notifyMap, closed) => { g with state := { g.state with notifyMap }, closed }
    else some g

/-- `NotifyBlockConnected`'s goroutine run as one step, as if `NotifyLongPollers` were called
with the lock held. -/
def notifyBlockConnected (blockHash : Hash) (g : Work) : Option Work :=
  (notifyLongPollers blockHash g.state.lastTxUpdate g.state.notifyMap g.closed).map
    fun (notifyMap, closed) => { g with state := { g.state with notifyMap }, closed }

/-! ### Runs -/

section Runs

variable (merkleRoot : List MsgTx → Hash) (addrs : List Address) (G : Env → Prop)

/-- One locked section.  A long poll that wakes up runs `request`; a request whose client asks
for a full coinbase with no address configured is turned away before it locks.  `G` says
which environments the run may meet. -/
inductive Step : Work → Work → Prop where
  | request {g g' : Work} {err : Option String} (env : Env) (useCoinbaseValue : Bool) :
      G env → coinbaseCheck addrs useCoinbaseValue = none →
      updateBlockTemplate merkleRoot env addrs useCoinbaseValue g = some (g', err) → Step g g'
  | longPoll {g g' : Work} (env : Env) (useCoinbaseValue : Bool) (longPollID : Option (Hash × Int)) :
      G env → coinbaseCheck addrs useCoinbaseValue = none →
      handleGetBlockTemplateLongPoll merkleRoot env addrs useCoinbaseValue longPollID g = some g' →
      Step g g'
  | mempoolTx {g g' : Work} (lastUpdated now : Time) : notifyMempoolTx lastUpdated now g = some g' →
      Step g g'
  | blockConnected {g g' : Work} (blockHash : Hash) : notifyBlockConnected blockHash g = some g' →
      Step g g'

/-- The states some sequence of locked sections reaches from `NewGbtWorkState`. -/
def Reachable (g : Work) : Prop :=
  Relation.ReflTransGen (Step merkleRoot addrs G) Work.init g

end Runs

/-- An environment at a fixed tip whose `NewBlockTemplate` returns an empty template on it and
whose `PayToAddrScript` fails; the header's time is left as it is. -/
def Env.fixed (tip : Hash) (txLastUpdated now : Time) : Env :=
  ⟨tip, txLastUpdated, now, now, 0, 0, fun _ => .ok ⟨⟨tip, 0, 0, 0, 0⟩, [], false⟩,
    fun _ => .error "", fun h => (h.timestamp, h.bits)⟩

end Pod.Gbt
