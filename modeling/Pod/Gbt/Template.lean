import Pod.Gbt.WorkState

/-!
# GBT — the template `UpdateBlockTemplate` serves

`UpdateBlockTemplate` either builds a new template, clearing `prevHash` first so that a failure
of `NewBlockTemplate` makes the next call try again, or keeps the one it has: when the caller
asks for a full coinbase and the template does not pay a configured address yet, it rewrites
the coinbase's first output and recomputes the merkle root in place.

The mining package is not part of this repository; what this module needs of
`NewBlockTemplate` is `Env.Contract`: a template it returns commits to its transactions, and
pays an address it was given.

* `Reachable.templateOk`: in every run, the template's header commits to its transactions.
* `updateBlockTemplate_served`: a call that returns nil leaves a previous hash and a template
  that commits to its transactions and, for a full coinbase, pays a configured address; a call
  that fails while building a new template leaves `prevHash` nil.
-/

namespace Pod.Gbt

open Pod

/-- What `NewBlockTemplate` promises: the header's merkle root is that of the transactions, and
the coinbase pays the address it is given. -/
def Env.Contract (merkleRoot : List MsgTx → Hash) (env : Env) : Prop :=
  ∀ a t, env.newBlockTemplate a = .ok t →
    t.header.merkleRoot = merkleRoot t.transactions ∧ (a.isSome → t.validPayAddress = true)

/-- The template's header commits to its transactions. -/
def TemplateOk (merkleRoot : List MsgTx → Hash) (state : GBTWorkState) : Prop :=
  ∀ t, state.template = some t → t.header.merkleRoot = merkleRoot t.transactions

section Calls

variable {merkleRoot : List MsgTx → Hash} {env : Env} {addrs : List Address}
  {useCoinbaseValue : Bool} {w w' : Work} {err : Option String}

/-- A new template: on success it comes from `NewBlockTemplate` with the tip as `prevHash`;
on failure `prevHash` is cleared and the old template stays. -/
theorem regenerate_spec (hc : env.Contract merkleRoot)
    (h : regenerate env addrs useCoinbaseValue w = some (w', err)) :
    (err = none ∧ w'.state.prevHash = some env.tip ∧ ∃ t, w'.state.template = some t ∧
      t.header.merkleRoot = merkleRoot t.transactions ∧
      (useCoinbaseValue = false → t.validPayAddress = true)) ∨
    (err ≠ none ∧ w'.state.prevHash = none ∧ w'.state.template = w.state.template) := by
  unfold regenerate at h
  obtain ⟨payAddr, hpay, h⟩ := Option.bind_eq_some.mp h
  split at h
  · cases h; exact .inr ⟨by simp, rfl, rfl⟩
  · rename_i t ht
    obtain ⟨⟨m, c⟩, -, he⟩ := Option.map_eq_some'.mp h
    cases he
    refine .inl ⟨rfl, rfl, t, rfl, (hc _ _ ht).1, fun hu => (hc _ _ ht).2 ?_⟩
    subst hu
    obtain ⟨a, -, rfl⟩ := Option.map_eq_some'.mp hpay
    rfl

/-- The kept template: on success the header still commits to the transactions, recomputed
when the coinbase was rewritten, and a full coinbase pays a configured address; a failure of
`PayToAddrScript` changes nothing. -/
theorem refreshTemplate_spec {t : BlockTemplate}
    (h : refreshTemplate merkleRoot env addrs useCoinbaseValue t w = some (w', err)) :
    (err = none ∧ w'.state.prevHash = w.state.prevHash ∧ ∃ t', w'.state.template = some t' ∧
      (t'.header.merkleRoot = merkleRoot t'.transactions ∨
        t'.header.merkleRoot = t.header.merkleRoot ∧ t'.transactions = t.transactions) ∧
      (useCoinbaseValue = false → t'.validPayAddress = true)) ∨
    (err ≠ none ∧ w' = w) := by
  unfold refreshTemplate at h
  obtain ⟨r, hr, he⟩ := Option.map_eq_some'.mp h
  split at he
  · cases he; exact .inr ⟨by simp, rfl⟩
  · rename_i t₁
    cases he
    refine .inl ⟨rfl, rfl, _, rfl, ?_⟩
    split at hr
    · obtain ⟨a, -, hr⟩ := Option.bind_eq_some.mp hr
      split at hr
      · cases hr
      · obtain ⟨txs, -, hr⟩ := Option.map_eq_some'.mp hr
        cases hr
        exact ⟨.inl rfl, fun _ => rfl⟩
    · rename_i hpaid
      cases hr
      refine ⟨.inr ⟨rfl, rfl⟩, fun hu => ?_⟩
      subst hu
      simpa using hpaid

end Calls

/-- `TemplateUpdateChan` leaves the template alone. -/
theorem templateUpdateChan_template (prevHash : Hash) (lastGenerated : Int) (w : Work) :
    (templateUpdateChan prevHash lastGenerated w).1.state.template = w.state.template := by
  simp only [templateUpdateChan]
  split <;> rfl

/-! ### Runs -/

section Runs

variable {merkleRoot : List MsgTx → Hash} {addrs : List Address} {G : Env → Prop}
  (hG : ∀ env, G env → env.Contract merkleRoot)
include hG

theorem TemplateOk.update {env : Env} {useCoinbaseValue : Bool} {w w' : Work}
    {err : Option String} (h : TemplateOk merkleRoot w.state) (henv : G env)
    (hu : updateBlockTemplate merkleRoot env addrs useCoinbaseValue w = some (w', err)) :
    TemplateOk merkleRoot w'.state := by
  have hgen : regenerate env addrs useCoinbaseValue w = some (w', err) →
      TemplateOk merkleRoot w'.state := fun hr => by
    rcases regenerate_spec (hG env henv) hr with ⟨-, -, t, ht, hm, -⟩ | ⟨-, -, ht⟩
    · intro t' ht'; rw [ht] at ht'; cases ht'; exact hm
    · rw [TemplateOk, ht]; exact h
  unfold updateBlockTemplate at hu
  split at hu
  · exact hgen hu
  · rename_i t htpl
    split at hu
    · exact hgen hu
    · rcases refreshTemplate_spec hu with ⟨-, -, t', ht', hm, -⟩ | ⟨-, rfl⟩
      · intro t'' ht''
        rw [ht'] at ht''
        cases ht''
        rcases hm with hm | ⟨hm, htx⟩
        · exact hm
        · rw [hm, htx]; exact h t htpl
      · exact h

/-- **The template commits to its transactions** in every run of locked sections, whatever
each call's tip, mempool, clock and `NewBlockTemplate` failures. -/
theorem Reachable.templateOk {w : Work} (hr : Reachable merkleRoot addrs G w) :
    TemplateOk merkleRoot w.state := by
  induction hr with
  | refl => intro t ht; cases ht
  | tail _ hs ih =>
    cases hs with
    | request env _ henv _ hu => exact ih.update hG henv hu
    | longPoll env _ _ henv _ hl =>
      obtain ⟨w₁, err₁, hu, rfl | ⟨prevHash, lastGenerated, rfl⟩⟩ :=
        handleGetBlockTemplateLongPoll_cases hl
      · exact ih.update hG henv hu
      · rw [TemplateOk, templateUpdateChan_template]; exact ih.update hG henv hu
    | mempoolTx _ _ hm =>
      unfold notifyMempoolTx at hm
      split at hm
      · cases hm; exact ih
      · split at hm
        · cases hm; exact ih
        · split at hm
          · obtain ⟨_, -, he⟩ := Option.map_eq_some'.mp hm; cases he; exact ih
          · cases hm; exact ih
    | blockConnected _ hb =>
      obtain ⟨_, -, he⟩ := Option.map_eq_some'.mp hb; cases he; exact ih

/-- **What `UpdateBlockTemplate` leaves**: in every run of locked sections, whatever the tip,
the mempool, the clock and the failures of `NewBlockTemplate` and `PayToAddrScript`, a call
that returns nil leaves a previous hash and a template whose header commits to its
transactions and which, when the caller asked for a full coinbase, pays a configured address;
a call that fails after deciding on a new template leaves `prevHash` nil, and one that fails
while keeping the template changes nothing. -/
theorem updateBlockTemplate_served {env : Env} {useCoinbaseValue : Bool} {w w' : Work}
    {err : Option String} (hr : Reachable merkleRoot addrs G w) (henv : G env)
    (hu : updateBlockTemplate merkleRoot env addrs useCoinbaseValue w = some (w', err)) :
    (err = none → w'.state.prevHash.isSome ∧ ∃ t, w'.state.template = some t ∧
      t.header.merkleRoot = merkleRoot t.transactions ∧
      (useCoinbaseValue = false → t.validPayAddress = true)) ∧
    (err ≠ none → (w.state.template = none ∨
      needsNewTemplate w.state env.tip env.lastTxUpdate env.now = true) →
        w'.state.prevHash = none) ∧
    (err ≠ none → w.state.template ≠ none →
      needsNewTemplate w.state env.tip env.lastTxUpdate env.now = false → w' = w) := by
  have hgen : regenerate env addrs useCoinbaseValue w = some (w', err) →
      (err = none → w'.state.prevHash.isSome ∧ ∃ t, w'.state.template = some t ∧
        t.header.merkleRoot = merkleRoot t.transactions ∧
        (useCoinbaseValue = false → t.validPayAddress = true)) ∧
      (err ≠ none → w'.state.prevHash = none) := fun h => by
    rcases regenerate_spec (hG env henv) h with ⟨rfl, hp, ht⟩ | ⟨hne, hp, -⟩
    · exact ⟨fun _ => ⟨by simp [hp], ht⟩, fun h => absurd rfl h⟩
    · exact ⟨fun h => absurd h hne, fun _ => hp⟩
  unfold updateBlockTemplate at hu
  split at hu
  · rename_i htpl
    exact ⟨(hgen hu).1, fun he _ => (hgen hu).2 he, fun _ h => absurd htpl h⟩
  · rename_i t htpl
    split at hu
    · rename_i hn
      exact ⟨(hgen hu).1, fun he _ => (hgen hu).2 he, fun _ _ h => absurd hn (by simp [h])⟩
    · rename_i hn
      have hp : w.state.prevHash = some env.tip := by
        simp only [needsNewTemplate, Bool.or_eq_true, bne_iff_ne, ne_eq, not_or, not_not] at hn
        exact hn.1
      rcases refreshTemplate_spec hu with ⟨rfl, hp', t', ht', hm, hv⟩ | ⟨hne, rfl⟩
      · refine ⟨fun _ => ⟨by simp [hp', hp], t', ht', ?_, hv⟩, fun h => absurd rfl h,
          fun h => absurd rfl h⟩
        rcases hm with hm | ⟨hm, htx⟩
        · exact hm
        · rw [hm, htx]; exact hr.templateOk hG t htpl
      · exact ⟨fun h => absurd h hne, fun _ h => by simp [htpl, hn] at h, fun _ _ _ => rfl⟩

end Runs

/-- A merkle root that counts the bytes of the output scripts. -/
def scriptRoot (txs : List MsgTx) : Hash := ((txs.flatMap (·.pkScripts)).map List.length).sum

/-- A tip `7` whose `NewBlockTemplate` returns a coinbase with one empty output script, paying
an address only when given one, and whose `PayToAddrScript` gives the script `pay`. -/
def Env.coinbase : Env :=
  ⟨7, 50000000000, 100000000000, 100000000000, 0, 0,
    fun a => .ok ⟨⟨7, 0, 0, 0, 0⟩, [⟨0, [[]]⟩], a.isSome⟩, fun _ => .ok (.ofAscii "pay"),
    fun h => (h.timestamp, h.bits)⟩

/-- A request for the coinbase value builds a template that pays no address; a request for a
full coinbase on the same tip then rewrites the coinbase's output in place and recomputes the
merkle root. -/
theorem updateBlockTemplate_served_refresh :
    ∃ w₁ w₂, updateBlockTemplate scriptRoot Env.coinbase [1] true Work.init = some (w₁, none) ∧
      (w₁.state.prevHash.isSome ∧ ∃ t, w₁.state.template = some t ∧
        t.header.merkleRoot = scriptRoot t.transactions ∧ (true = false → t.validPayAddress = true)) ∧
      w₁.state.template.map (·.validPayAddress) = some false ∧
      updateBlockTemplate scriptRoot Env.coinbase [1] false w₁ = some (w₂, none) ∧
      w₂.state.prevHash.isSome ∧ ∃ t, w₂.state.template = some t ∧
        t.header.merkleRoot = scriptRoot t.transactions ∧ (false = false → t.validPayAddress = true) := by
  have hc : Env.coinbase.Contract scriptRoot := by
    rintro a t ⟨⟩
    exact ⟨rfl, id⟩
  have hu₁ : updateBlockTemplate scriptRoot Env.coinbase [1] true Work.init = some (_, none) := rfl
  have hr : Reachable scriptRoot [1] (Env.Contract scriptRoot) _ :=
    .single (.request _ true hc rfl hu₁)
  exact ⟨_, _, hu₁, (updateBlockTemplate_served (fun _ h => h) .refl hc hu₁).1 rfl, rfl, rfl,
    (updateBlockTemplate_served (fun _ h => h) hr hc
      (rfl : updateBlockTemplate scriptRoot Env.coinbase [1] false _ = _)).1 rfl⟩

end Pod.Gbt
