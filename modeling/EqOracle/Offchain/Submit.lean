/-
  EqOracle.Offchain.Submit
  ────────────────────────
  **`offchain_worker` FROM END TO END: KEYS, LOCK, SCHEDULER, PRICE SOURCE, TRANSACTIONS.**

  One run of `offchain_worker(block_number)` on a node:

    1. the node's keys of the oracle's key type whose accounts the whitelist contains become
       the accounts of a `ForAll` signer; with none, the run returns at once;
    2. under `acquire_lock(b"eq-orac/", ..)` it runs the scheduler's task (`workerTask`);
    3. when the task fires, `update_prices` asks the runtime's `PriceSource` (a tuple of
       `PriceSourceStruct`s: the first whose type is the stored one answers) for the prices of
       the registry's assets, and for every `Ok` price sends one `set_price_unsigned` per
       account of the signer, signed with that account's key.

  The ending of the task under the lock, a parameter of `EqOracle.Offchain.Lock`, is computed
  here: the task panics exactly when `get_prices` does, after the scheduler has written its
  counter.

  Main results:
    * `offchainWorker_tags_nodup` — a run never sends two transactions with the same pool tag
      `(public, asset)` when its source names each asset once, as a sound source does;
    * `offchainWorker_sent_sound` — with a source like the JSON one, every transaction a run
      sends names a registered asset and carries a non-negative price;
    * `offchainWorker_sent_validity` — the pool's verdict on a sent transaction, in any later
      block: `Stale` outside the lifetime window, and inside it the verdict of
      `validate_params` at the sending block, never `BadProof`;
    * `runWorker_after_panic` — after a run whose `get_prices` panics, every later run until a
      restart sends nothing and leaves the node's storage as the panicking run left it;
    * `runWorker_eq_schedule` — over runs that never panic, the worker with its lock is the
      scheduler's task followed by `update_prices`, tick by tick: the lock never stops a lone
      worker.
-/
import EqOracle.Pallet.Unsigned
import EqOracle.PriceSource.GetPrices
import EqOracle.Offchain.Worker
import EqOracle.Offchain.Lock

namespace EqOracle.Offchain

open Pallet PriceSource

/-! ## §1. The runtime's `PriceSource`. -/

/-- The answer of `PriceSourcePeeker::get_prices`: the prices; `Err(Some(msg))` when the source
    of the requested type cannot be built; `Err(None)` when the source is of another type.
    `none` is a panic. -/
abbrev PeekResult (AssetId : Type) :=
  Option (Except (Option (List Char)) (List (AssetId × Except (List Char) FixedI64)))

/-- A `PriceSourcePeeker` in one run of the worker: the source type and the registry's assets
    to the answer. -/
abbrev PriceSourcePeeker (AssetId AssetData : Type) :=
  List Char → List (AssetId × AssetData) → PeekResult AssetId

section Sources

variable {AssetId AssetData : Type}

/-- `PriceSourceStruct<P>::get_prices`, for a `P` with `PRICE_SOURCE_TYPE`, `new` and
    `get_prices`. -/
def PriceSourceStruct.getPrices {Src : Type} (priceSourceType : List Char)
    (new : List (AssetId × AssetData) → Except (List Char) Src)
    (getPrices : Src → Option (List (AssetId × Except (List Char) FixedI64))) :
    PriceSourcePeeker AssetId AssetData := fun sourceType assetsData =>
  if sourceType = priceSourceType then
    match new assetsData with
    | .error err => some (.error (some err))
    | .ok priceSource => (getPrices priceSource).map .ok
  else some (.error none)

/-- The tuple impl of `PriceSourcePeeker`: the components in order; the first answer that is
    not `Err(None)` is returned. -/
def tupleGetPrices : List (PriceSourcePeeker AssetId AssetData) → PriceSourcePeeker AssetId AssetData
  | [] => fun _ _ => some (.error none)
  | p :: ps => fun sourceType assetsData =>
    match p sourceType assetsData with
    | some (.error none) => tupleGetPrices ps sourceType assetsData
    | res => res

/-- `JsonPriceSource::PRICE_SOURCE_TYPE`. -/
def jsonPriceSourceType : List Char := "custom".toList

/-- `PriceSourceStruct<JsonPriceSource>` on a node: its stored query and restriction set, and
    the outcome of each asset's request. -/
def jsonSource (sym : AsSymbol AssetId) (fromStr : List Char → Option Value)
    (storedQuery storedSettings : Option (List UInt8)) (http : AssetId → HttpOutcome) :
    PriceSourcePeeker AssetId AssetData :=
  PriceSourceStruct.getPrices jsonPriceSourceType (JsonPriceSource.new storedQuery)
    fun src => src.getPrices sym fromStr storedSettings http

/-- What the JSON source guarantees of an answer: its assets are a sublist of the registry's,
    and its prices are non-negative. -/
structure SoundAnswer (assetsData : List (AssetId × AssetData))
    (prices : List (AssetId × Except (List Char) FixedI64)) : Prop where
  sublist : (prices.map Prod.fst).Sublist (assetsData.map Prod.fst)
  nonneg : ∀ asset p, (asset, .ok p) ∈ prices → 0 ≤ p.inner

/-- A price source all of whose answers are sound. -/
def SoundSource (priceSource : PriceSourcePeeker AssetId AssetData) : Prop :=
  ∀ sourceType assetsData prices,
    priceSource sourceType assetsData = some (.ok prices) → SoundAnswer assetsData prices

/-- A tuple answers with one of its components' answers. -/
theorem tupleGetPrices_eq_ok {ps : List (PriceSourcePeeker AssetId AssetData)}
    {sourceType : List Char} {assetsData : List (AssetId × AssetData)}
    {prices : List (AssetId × Except (List Char) FixedI64)}
    (h : tupleGetPrices ps sourceType assetsData = some (.ok prices)) :
    ∃ p ∈ ps, p sourceType assetsData = some (.ok prices) := by
  induction ps with
  | nil => cases h
  | cons p ps ih =>
    simp only [tupleGetPrices] at h
    split at h
    · obtain ⟨q, hq, hq'⟩ := ih h
      exact ⟨q, List.mem_cons_of_mem _ hq, hq'⟩
    · exact ⟨p, List.mem_cons_self _ _, h⟩

theorem SoundSource.tuple {ps : List (PriceSourcePeeker AssetId AssetData)}
    (h : ∀ p ∈ ps, SoundSource p) : SoundSource (tupleGetPrices ps) := fun _ _ _ hp =>
  let ⟨p, hmem, hp'⟩ := tupleGetPrices_eq_ok hp
  h p hmem _ _ _ hp'

/-- **The JSON source is sound.** -/
theorem jsonSource_sound (sym : AsSymbol AssetId) (fromStr : List Char → Option Value)
    (storedQuery storedSettings : Option (List UInt8)) (http : AssetId → HttpOutcome) :
    SoundSource (jsonSource sym fromStr storedQuery storedSettings http :
      PriceSourcePeeker AssetId AssetData) := by
  intro sourceType assetsData prices h
  simp only [jsonSource, PriceSourceStruct.getPrices] at h
  split at h
  · split at h
    · cases h
    · rename_i src hsrc
      obtain ⟨prices', hp, he⟩ := Option.map_eq_some'.mp h
      cases he
      have hd : src.assetsData = assetsData := by
        unfold JsonPriceSource.new at hsrc
        split at hsrc <;> cases hsrc
        rfl
      exact ⟨hd ▸ getPricesFrom_assets_sublist hp, fun _ _ => getPricesFrom_nonneg hp⟩
  · cases h

end Sources

/-! ## §2. `get_prices`, `update_prices`, `submit_tx_update_price`. -/

section Submit

variable {AssetId AssetData Public Signature : Type}

/-- `Pallet::get_prices`: the runtime's `PriceSource` on the registry's assets; a source that
    cannot be built and an unknown type both give no prices.  `none` is a panic. -/
def getPrices (priceSource : PriceSourcePeeker AssetId AssetData)
    (assetsData : List (AssetId × AssetData)) (sourceTypeName : List Char) :
    Option (List (AssetId × Except (List Char) FixedI64)) :=
  (priceSource sourceTypeName assetsData).map fun
    | .ok prices => prices
    | .error _ => []

/-- A `Signer<T, T::AuthorityId, ForAll>`: its accounts' public keys, and the keystore's
    `SignedPayload::sign` (`None` when the key cannot sign). -/
structure Signer (Public AssetId Signature : Type) where
  accounts : List Public
  sign : PricePayload Public AssetId → Option Signature

/-- `Signer::can_sign`. -/
def Signer.canSign (signer : Signer Public AssetId Signature) : Bool := !signer.accounts.isEmpty

/-- `submit_tx_update_price`: `send_unsigned_transaction` builds, for every account of the
    signer, the payload with the account's public key and signs it; an account whose signing
    fails sends nothing (`for_all`).  The result is the `set_price_unsigned { payload,
    signature }` transactions handed to the pool. -/
def submitTxUpdatePrice (signer : Signer Public AssetId Signature) (asset : AssetId)
    (price : FixedI64) (blockNumber : Nat) : List (PricePayload Public AssetId × Signature) :=
  signer.accounts.filterMap fun public =>
    let payload : PricePayload Public AssetId := ⟨public, asset, price, blockNumber⟩
    (signer.sign payload).map (payload, ·)

/-- `update_prices`: every `Ok` price is submitted, an `Err` is skipped.  `none` is a panic of
    `get_prices`. -/
def updatePrices (priceSource : PriceSourcePeeker AssetId AssetData)
    (assetsData : List (AssetId × AssetData)) (sourceTypeName : List Char) (blockNumber : Nat)
    (signer : Signer Public AssetId Signature) :
    Option (List (PricePayload Public AssetId × Signature)) :=
  (getPrices priceSource assetsData sourceTypeName).map fun prices =>
    prices.flatMap fun e =>
      match e.2 with
      | .ok price => submitTxUpdatePrice signer e.1 price blockNumber
      | .error _ => []

/-- The pool tag a `set_price_unsigned` transaction provides. -/
def tag (tx : PricePayload Public AssetId × Signature) : Public × AssetId :=
  (tx.1.public, tx.1.asset)

theorem mem_submitTxUpdatePrice {signer : Signer Public AssetId Signature} {asset : AssetId}
    {price : FixedI64} {blockNumber : Nat} {tx : PricePayload Public AssetId × Signature} :
    tx ∈ submitTxUpdatePrice signer asset price blockNumber ↔
      tx.1.public ∈ signer.accounts ∧ tx.1 = ⟨tx.1.public, asset, price, blockNumber⟩ ∧
        signer.sign tx.1 = some tx.2 := by
  obtain ⟨payload, σ⟩ := tx
  simp only [submitTxUpdatePrice, List.mem_filterMap, Option.map_eq_some', Prod.mk.injEq]
  constructor
  · rintro ⟨public, hp, σ', hs, rfl, rfl⟩
    exact ⟨hp, rfl, hs⟩
  · rintro ⟨hp, he, hs⟩
    exact ⟨payload.public, hp, σ, he ▸ hs, he.symm, rfl⟩

/-- What every transaction `update_prices` sends is: an `Ok` price of the answer, in a payload
    of the sending block with a key of the signer, signed by the keystore. -/
theorem mem_updatePrices {priceSource : PriceSourcePeeker AssetId AssetData}
    {assetsData : List (AssetId × AssetData)} {sourceTypeName : List Char} {blockNumber : Nat}
    {signer : Signer Public AssetId Signature} {sent : List (PricePayload Public AssetId × Signature)}
    (h : updatePrices priceSource assetsData sourceTypeName blockNumber signer = some sent)
    {tx : PricePayload Public AssetId × Signature} (htx : tx ∈ sent) :
    ∃ prices, getPrices priceSource assetsData sourceTypeName = some prices ∧
      (tx.1.asset, .ok tx.1.price) ∈ prices ∧ tx.1.blockNumber = blockNumber ∧
      tx.1.public ∈ signer.accounts ∧ signer.sign tx.1 = some tx.2 := by
  obtain ⟨prices, hp, rfl⟩ := Option.map_eq_some'.mp h
  obtain ⟨⟨asset, r⟩, he, htx⟩ := List.mem_flatMap.mp htx
  cases r with
  | error _ => cases htx
  | ok price =>
    obtain ⟨hpub, heq, hs⟩ := mem_submitTxUpdatePrice.mp htx
    obtain ⟨⟨public, asset', price', b⟩, σ⟩ := tx
    simp only [PricePayload.mk.injEq, true_and] at heq
    obtain ⟨rfl, rfl, rfl⟩ := heq
    exact ⟨prices, hp, he, rfl, hpub, hs⟩

/-- The tags of one price's transactions: the signer's keys that signed, with the asset. -/
theorem tags_submitTxUpdatePrice_nodup {signer : Signer Public AssetId Signature}
    (hkeys : signer.accounts.Nodup) (asset : AssetId) (price : FixedI64) (blockNumber : Nat) :
    ((submitTxUpdatePrice signer asset price blockNumber).map tag).Nodup := by
  rw [submitTxUpdatePrice, List.map_filterMap]
  refine hkeys.filterMap fun a a' b hb hb' => ?_
  simp only [Option.mem_def, Option.map_map, Option.map_eq_some'] at hb hb'
  obtain ⟨_, -, rfl⟩ := hb
  obtain ⟨_, -, he⟩ := hb'
  exact (Prod.mk.inj he).1.symm

/-- **`update_prices` sends each tag at most once** when the answer names each asset once and
    the signer's keys are distinct. -/
theorem tags_updatePrices_nodup {priceSource : PriceSourcePeeker AssetId AssetData}
    {assetsData : List (AssetId × AssetData)} {sourceTypeName : List Char} {blockNumber : Nat}
    {signer : Signer Public AssetId Signature} {sent : List (PricePayload Public AssetId × Signature)}
    (h : updatePrices priceSource assetsData sourceTypeName blockNumber signer = some sent)
    (hkeys : signer.accounts.Nodup)
    (hassets : ∀ prices, getPrices priceSource assetsData sourceTypeName = some prices →
      (prices.map Prod.fst).Nodup) :
    (sent.map tag).Nodup := by
  obtain ⟨prices, hp, rfl⟩ := Option.map_eq_some'.mp h
  have hblock : ∀ e : AssetId × Except (List Char) FixedI64, ∀ x ∈ (match e.2 with
      | .ok price => submitTxUpdatePrice signer e.1 price blockNumber
      | .error _ => []), x.1.asset = e.1 := by
    rintro ⟨asset, _ | price⟩ x hx
    · cases hx
    · exact congrArg PricePayload.asset (mem_submitTxUpdatePrice.mp hx).2.1
  rw [List.map_flatMap]
  refine List.nodup_flatMap.mpr ⟨?_, ?_⟩
  · rintro ⟨asset, _ | price⟩ -
    · exact List.nodup_nil
    · exact tags_submitTxUpdatePrice_nodup hkeys asset price blockNumber
  · refine (List.pairwise_map.mp (hassets prices hp)).imp fun {e e'} hne => ?_
    intro t ht ht'
    obtain ⟨x, hx, rfl⟩ := List.mem_map.mp ht
    obtain ⟨x', hx', hxx⟩ := List.mem_map.mp ht'
    exact hne ((hblock e x hx).symm.trans ((congrArg Prod.snd hxx).symm.trans (hblock e' x' hx')))

end Submit

/-! ## §3. One run of `offchain_worker`. -/

/-- The node's persistent offchain storage: the lock's keys and the scheduler's. -/
structure NodeStore (ExecId : Type) where
  lock : LockStore ExecId
  worker : WorkerStore

section Run

variable {AccountId AssetId AssetData Public Signature ExecId : Type} [DecidableEq ExecId]
  (cfg : Config AccountId AssetId AssetData Public) (localKeys : List Public)
  (sign : PricePayload Public AssetId → Option Signature)

/-- The signer `offchain_worker` builds: the node's keys whose accounts are whitelisted. -/
def signerOf (env : Env AccountId AssetId) : Signer Public AssetId Signature :=
  ⟨localKeys.filter fun key => env.whitelist (cfg.intoAccount key), sign⟩

/-- What the task under the lock sends, once the scheduler has answered: nothing when it does
    not fire, else what `update_prices` sends; `none` when that panics. -/
def taskSent (env : Env AccountId AssetId) (priceSource : PriceSourcePeeker AssetId AssetData) :
    Option (List Char) → Option (List (PricePayload Public AssetId × Signature))
  | some sourceTypeName => updatePrices priceSource cfg.assetGetter.assetsData sourceTypeName
      env.blockNumber (signerOf cfg localKeys sign env)
  | none => some []

/-- How a task that sends `sent` ends. -/
def endingOf {α : Type} : Option α → TaskEnd
  | some _ => .returns
  | none => .panics

/-- `offchain_worker(block_number)` on a node, in the block whose state is `env`: the node's
    storage after it, and the transactions it sent. -/
def offchainWorker (env : Env AccountId AssetId) (priceSource : PriceSourcePeeker AssetId AssetData)
    (node : NodeStore ExecId) : NodeStore ExecId × List (PricePayload Public AssetId × Signature) :=
  if !(signerOf cfg localKeys sign env).canSign then (node, [])
  else
    let task := workerTask node.worker
    let sent := taskSent cfg localKeys sign env priceSource task.2
    match acquireLock (endingOf sent) node.lock with
    | (.returned .locked, lock) => (⟨lock, node.worker⟩, [])
    | (_, lock) => (⟨lock, task.1⟩, sent.getD [])

/-- What one run reads beyond the node's storage: the block's state, and the answers of the
    price source in that run (its HTTP outcomes). -/
structure Tick (AccountId AssetId AssetData : Type) where
  env : Env AccountId AssetId
  priceSource : PriceSourcePeeker AssetId AssetData

/-- Runs one after another with no restart between them: the node's storage after them, and
    what each run sent. -/
def runWorker (node : NodeStore ExecId) :
    List (Tick AccountId AssetId AssetData) →
      NodeStore ExecId × List (List (PricePayload Public AssetId × Signature))
  | [] => (node, [])
  | t :: ts =>
    let r := offchainWorker cfg localKeys sign t.env t.priceSource node
    let rest := runWorker r.1 ts
    (rest.1, r.2 :: rest.2)

/-- The lock is free for the next invocation: once the execution-id part has run, the flag is
    not set. -/
def LockFree (lock : LockStore ExecId) : Prop := (idPhase lock).lock ≠ .ok true

instance (lock : LockStore ExecId) : Decidable (LockFree lock) :=
  inferInstanceAs (Decidable (_ ≠ _))

/-- The lock is held for good: set, under the execution id the node runs with. -/
def Wedged (lock : LockStore ExecId) : Prop :=
  lock.lock = .ok true ∧ ∃ e, lock.execId = .ok e ∧ lock.prefixId = .ok e

namespace Mock

/-- A node of the mock runtime whose scheduler is due in its next run: execution id `1`, the
    lock never taken, price periodicity `1`, source type `custom`. -/
def node : NodeStore Nat :=
  ⟨⟨.ok 1, .absent, .absent⟩, ⟨none, some (asBytes "1".toList), some (asBytes "custom".toList)⟩⟩

/-- The mock's keystore (`TestAuthId`): signatures are not modelled, every payload is signed. -/
def signPayload : PricePayload Nat Nat → Option Unit := fun _ => some ()

/-- A source of type `custom` whose requests all read the price `1`. -/
def oneSource : PriceSourcePeeker Nat Unit :=
  PriceSourceStruct.getPrices jsonPriceSourceType (fun assetsData => .ok assetsData)
    fun assetsData => some (assetsData.map fun e => (e.1, .ok FixedI64.one))

theorem oneSource_sound : SoundSource oneSource := by
  intro sourceType assetsData prices h
  simp only [oneSource, PriceSourceStruct.getPrices] at h
  split at h
  · simp only [Option.map_some', Option.some.injEq, Except.ok.injEq] at h
    subst h
    refine ⟨by simp [Function.comp_def], fun _ _ hp => ?_⟩
    obtain ⟨_, -, he⟩ := List.mem_map.mp hp
    cases (Prod.mk.inj he).2
    decide
  · cases h

theorem oneSource_ne_none (sourceType : List Char) (assetsData : List (Nat × Unit)) :
    oneSource sourceType assetsData ≠ none := by
  simp only [oneSource, PriceSourceStruct.getPrices]
  split <;> simp

/-- The mock's `PriceSource`, the one-tuple `(PriceSourceStruct<JsonPriceSource>,)`, with
    `oneSource` in the JSON source's place. -/
def priceSource : PriceSourcePeeker Nat Unit := tupleGetPrices [oneSource]

theorem priceSource_sound : SoundSource priceSource :=
  SoundSource.tuple fun p hp => by rw [List.mem_singleton.mp hp]; exact oneSource_sound

end Mock

/-! ### The runs' step lemmas. -/

/-- Without a whitelisted key the run does nothing. -/
theorem offchainWorker_of_not_canSign {env : Env AccountId AssetId}
    {priceSource : PriceSourcePeeker AssetId AssetData} {node : NodeStore ExecId}
    (h : (signerOf cfg localKeys sign env).canSign = false) :
    offchainWorker cfg localKeys sign env priceSource node = (node, []) := by
  simp [offchainWorker, h]

/-- With a whitelisted key, the run is the lock's invocation around the task. -/
theorem offchainWorker_of_canSign {env : Env AccountId AssetId}
    {priceSource : PriceSourcePeeker AssetId AssetData} {node : NodeStore ExecId}
    (h : (signerOf cfg localKeys sign env).canSign = true) :
    offchainWorker cfg localKeys sign env priceSource node =
      match lockPhase (endingOf (taskSent cfg localKeys sign env priceSource
          (workerTask node.worker).2)) (idPhase node.lock) with
      | (.returned .locked, lock) => (⟨lock, node.worker⟩, [])
      | (_, lock) => (⟨lock, (workerTask node.worker).1⟩,
          (taskSent cfg localKeys sign env priceSource (workerTask node.worker).2).getD []) := by
  simp only [offchainWorker, h, Bool.not_true, acquireLock_eq]
  rfl

/-- **A wedged lock stops every run**: nothing is sent and the storage stays as it is. -/
theorem offchainWorker_of_wedged {env : Env AccountId AssetId}
    {priceSource : PriceSourcePeeker AssetId AssetData} {node : NodeStore ExecId}
    (h : Wedged node.lock) : offchainWorker cfg localKeys sign env priceSource node = (node, []) := by
  cases hs : (signerOf cfg localKeys sign env).canSign
  · exact offchainWorker_of_not_canSign cfg localKeys sign hs
  · obtain ⟨hl, e, he, hp⟩ := h
    have hid : idPhase node.lock = node.lock := by simp [idPhase, he, hp]
    rw [offchainWorker_of_canSign cfg localKeys sign hs, hid]
    simp [lockPhase, hl]

/-- **A run whose task panics wedges the lock**: with the lock free and a whitelisted key, a
    run whose scheduler fires and whose `get_prices` panics sends nothing, writes the
    scheduler's counter, and leaves the flag set under the current execution id. -/
theorem offchainWorker_of_panic {env : Env AccountId AssetId}
    {priceSource : PriceSourcePeeker AssetId AssetData} {node : NodeStore ExecId} {e : ExecId}
    (hs : (signerOf cfg localKeys sign env).canSign = true) (hexec : node.lock.execId = .ok e)
    (hfree : LockFree node.lock)
    (hpanic : taskSent cfg localKeys sign env priceSource (workerTask node.worker).2 = none) :
    (offchainWorker cfg localKeys sign env priceSource node).2 = [] ∧
      (offchainWorker cfg localKeys sign env priceSource node).1.worker =
        (workerTask node.worker).1 ∧
      Wedged (offchainWorker cfg localKeys sign env priceSource node).1.lock := by
  rw [offchainWorker_of_canSign cfg localKeys sign hs, hpanic]
  simp only [endingOf, lockPhase, if_neg hfree, true_and]
  refine ⟨rfl, rfl, e, ?_⟩
  unfold idPhase
  rw [hexec]
  by_cases hp : node.lock.prefixId = .ok e <;> simp [hp, hexec]

/-- With the lock free, a whitelisted key and a task that does not panic, the run is the
    scheduler's task followed by what it sends, and the lock is free again. -/
theorem offchainWorker_of_lockFree {env : Env AccountId AssetId}
    {priceSource : PriceSourcePeeker AssetId AssetData} {node : NodeStore ExecId}
    {sent : List (PricePayload Public AssetId × Signature)}
    (hs : (signerOf cfg localKeys sign env).canSign = true) (hfree : LockFree node.lock)
    (hsent : taskSent cfg localKeys sign env priceSource (workerTask node.worker).2 = some sent) :
    (offchainWorker cfg localKeys sign env priceSource node).2 = sent ∧
      (offchainWorker cfg localKeys sign env priceSource node).1.worker =
        (workerTask node.worker).1 ∧
      LockFree (offchainWorker cfg localKeys sign env priceSource node).1.lock := by
  rw [offchainWorker_of_canSign cfg localKeys sign hs, hsent]
  simp only [endingOf, lockPhase, if_neg hfree, Option.getD_some, true_and]
  simp [LockFree, idPhase]
  split <;> simp_all

/-- What a run sends is nothing, or what its task sends. -/
theorem offchainWorker_sent_eq (env : Env AccountId AssetId)
    (priceSource : PriceSourcePeeker AssetId AssetData) (node : NodeStore ExecId) :
    (offchainWorker cfg localKeys sign env priceSource node).2 = [] ∨
      taskSent cfg localKeys sign env priceSource (workerTask node.worker).2 =
        some (offchainWorker cfg localKeys sign env priceSource node).2 := by
  cases hs : (signerOf cfg localKeys sign env).canSign
  · exact .inl (by rw [offchainWorker_of_not_canSign cfg localKeys sign hs])
  · rw [offchainWorker_of_canSign cfg localKeys sign hs]
    split
    · exact .inl rfl
    · cases taskSent cfg localKeys sign env priceSource (workerTask node.worker).2
      · exact .inl rfl
      · exact .inr rfl

omit [DecidableEq ExecId] in
/-- What the task sends is a run of `update_prices` on the answer of `get_prices`. -/
theorem mem_taskSent {env : Env AccountId AssetId}
    {priceSource : PriceSourcePeeker AssetId AssetData} {sourceType : Option (List Char)}
    {sent : List (PricePayload Public AssetId × Signature)}
    (h : taskSent cfg localKeys sign env priceSource sourceType = some sent)
    {tx : PricePayload Public AssetId × Signature} (htx : tx ∈ sent) :
    ∃ name prices, sourceType = some name ∧
      getPrices priceSource cfg.assetGetter.assetsData name = some prices ∧
      (tx.1.asset, .ok tx.1.price) ∈ prices ∧ tx.1.blockNumber = env.blockNumber ∧
      tx.1.public ∈ localKeys ∧ env.whitelist (cfg.intoAccount tx.1.public) = true ∧
      sign tx.1 = some tx.2 := by
  cases sourceType with
  | none => cases h; cases htx
  | some name =>
    obtain ⟨prices, hp, hmem, hb, hpub, hs⟩ := mem_updatePrices h htx
    obtain ⟨hk, hw⟩ := List.mem_filter.mp hpub
    exact ⟨name, prices, rfl, hp, hmem, hb, hk, hw, hs⟩

/-- **The inversion of a run's transactions**: each is an `Ok` price of the answer the stored
    source type got, in a payload of the run's block, for a whitelisted key of the node,
    signed by the keystore. -/
theorem mem_offchainWorker {env : Env AccountId AssetId}
    {priceSource : PriceSourcePeeker AssetId AssetData} {node : NodeStore ExecId}
    {tx : PricePayload Public AssetId × Signature}
    (htx : tx ∈ (offchainWorker cfg localKeys sign env priceSource node).2) :
    ∃ name prices, (workerTask node.worker).2 = some name ∧
      getPrices priceSource cfg.assetGetter.assetsData name = some prices ∧
      (tx.1.asset, .ok tx.1.price) ∈ prices ∧ tx.1.blockNumber = env.blockNumber ∧
      tx.1.public ∈ localKeys ∧ env.whitelist (cfg.intoAccount tx.1.public) = true ∧
      sign tx.1 = some tx.2 := by
  rcases offchainWorker_sent_eq cfg localKeys sign env priceSource node with h | h
  · rw [h] at htx; cases htx
  · exact mem_taskSent cfg localKeys sign h htx

omit [DecidableEq ExecId] in
theorem getPrices_sound {priceSource : PriceSourcePeeker AssetId AssetData}
    (hsrc : SoundSource priceSource) {assetsData : List (AssetId × AssetData)}
    {name : List Char} {prices : List (AssetId × Except (List Char) FixedI64)}
    (h : getPrices priceSource assetsData name = some prices) : SoundAnswer assetsData prices := by
  obtain ⟨r, hr, rfl⟩ := Option.map_eq_some'.mp h
  cases r with
  | error _ => exact ⟨List.nil_sublist _, fun _ _ h => by cases h⟩
  | ok prices => exact hsrc _ _ _ hr

omit [DecidableEq ExecId] in
/-- A sound source's answers name each registry asset at most once. -/
theorem getPrices_nodup_of_sound {priceSource : PriceSourcePeeker AssetId AssetData}
    (hsrc : SoundSource priceSource) {assetsData : List (AssetId × AssetData)}
    (hnd : (assetsData.map Prod.fst).Nodup) {name : List Char}
    {prices : List (AssetId × Except (List Char) FixedI64)}
    (h : getPrices priceSource assetsData name = some prices) : (prices.map Prod.fst).Nodup :=
  (getPrices_sound hsrc h).sublist.nodup hnd

/-- **One run never sends two transactions with the same pool tag** `(public, asset)`, when
    the node's keys are distinct and its source's answers name each asset at most once (as a
    sound source's do, `getPrices_nodup_of_sound`): no transaction of a run can take
    another's place in the pool. -/
theorem offchainWorker_tags_nodup {env : Env AccountId AssetId}
    {priceSource : PriceSourcePeeker AssetId AssetData} {node : NodeStore ExecId}
    (hkeys : localKeys.Nodup)
    (hassets : ∀ name prices, getPrices priceSource cfg.assetGetter.assetsData name = some prices →
      (prices.map Prod.fst).Nodup) :
    ((offchainWorker cfg localKeys sign env priceSource node).2.map tag).Nodup := by
  rcases offchainWorker_sent_eq cfg localKeys sign env priceSource node with h | h
  · rw [h]; exact List.nodup_nil
  · revert h
    cases (workerTask node.worker).2 with
    | none => intro h; rw [← Option.some.inj h]; exact List.nodup_nil
    | some name =>
      intro h
      exact tags_updatePrices_nodup h (hkeys.filter _) (hassets name)

/-- The mock node's run with the keys `7` and `8` and the mock's `PriceSource`: one
    transaction per registered asset and key, ten distinct tags. -/
theorem offchainWorker_tags_nodup_mock :
    [7, 8].Nodup ∧
      (∀ name prices, getPrices Mock.priceSource Pallet.Mock.config.assetGetter.assetsData name =
        some prices → (prices.map Prod.fst).Nodup) ∧
      (offchainWorker Pallet.Mock.config [7, 8] Mock.signPayload (Pallet.Mock.env 4 0) Mock.priceSource
        Mock.node).2.length = 10 ∧
      ((offchainWorker Pallet.Mock.config [7, 8] Mock.signPayload (Pallet.Mock.env 4 0)
        Mock.priceSource Mock.node).2.map tag).Nodup :=
  have hassets : ∀ name prices, getPrices Mock.priceSource Pallet.Mock.config.assetGetter.assetsData
      name = some prices → (prices.map Prod.fst).Nodup := fun _ _ h =>
    getPrices_nodup_of_sound Mock.priceSource_sound Pallet.Mock.config.assetGetter.nodup h
  ⟨by decide, hassets, rfl,
    offchainWorker_tags_nodup Pallet.Mock.config [7, 8] Mock.signPayload (by decide) hassets⟩

/-- **Every transaction a run sends names a registered asset and carries a non-negative
    price**, when its source answers like the JSON one. -/
theorem offchainWorker_sent_sound {env : Env AccountId AssetId}
    {priceSource : PriceSourcePeeker AssetId AssetData} {node : NodeStore ExecId}
    (hsrc : SoundSource priceSource) {tx : PricePayload Public AssetId × Signature}
    (htx : tx ∈ (offchainWorker cfg localKeys sign env priceSource node).2) :
    tx.1.asset ∈ cfg.assetGetter.getAssets ∧ 0 ≤ tx.1.price.inner := by
  obtain ⟨_, prices, -, hp, hmem, -⟩ := mem_offchainWorker cfg localKeys sign htx
  have hsound := getPrices_sound hsrc hp
  exact ⟨hsound.sublist.subset (List.mem_map_of_mem Prod.fst hmem), hsound.nonneg _ _ hmem⟩

/-- The mock node's run with the mock's `PriceSource` sends `EQ` at price `1` for the key `7`. -/
theorem offchainWorker_sent_sound_mock :
    SoundSource Mock.priceSource ∧
      (⟨7, Pallet.Mock.EQ, FixedI64.one, 4⟩, ()) ∈ (offchainWorker Pallet.Mock.config [7] Mock.signPayload
        (Pallet.Mock.env 4 0) Mock.priceSource Mock.node).2 ∧
      Pallet.Mock.EQ ∈ Pallet.Mock.config.assetGetter.getAssets ∧ 0 ≤ FixedI64.one.inner :=
  have hmem : (⟨7, Pallet.Mock.EQ, FixedI64.one, 4⟩, ()) ∈ (offchainWorker Pallet.Mock.config [7]
      Mock.signPayload (Pallet.Mock.env 4 0) Mock.priceSource Mock.node).2 :=
    List.mem_of_mem_head? rfl
  ⟨Mock.priceSource_sound, hmem,
    offchainWorker_sent_sound Pallet.Mock.config [7] Mock.signPayload Mock.priceSource_sound hmem⟩

end Run

/-! ## §4. What the pool makes of a run's transactions. -/

section Pool

variable {AccountId AssetId AssetData Public Signature ExecId : Type} [DecidableEq AccountId]
  [DecidableEq AssetId] [DecidableEq ExecId] (cfg : Config AccountId AssetId AssetData Public)
  (localKeys : List Public) (sign : PricePayload Public AssetId → Option Signature)
  (ucfg : UnsignedConfig Public AssetId Signature)

omit [DecidableEq AccountId] in
/-- **The pool's verdict on a transaction a run sends**, at any block whose state is `env'`:
    `Stale` outside the window `[b, b + UnsignedLifetimeInBlocks]` of the sending block `b`,
    and inside it `admitPayload`: the verdict of `validate_params` at `b` (in the state of
    `env'`), under a keystore whose signatures verify.  The sender's account was whitelisted
    at `b`. -/
theorem offchainWorker_sent_validity {env : Env AccountId AssetId}
    {priceSource : PriceSourcePeeker AssetId AssetData} {node : NodeStore ExecId}
    (hsign : ∀ payload σ, sign payload = some σ → ucfg.verify payload σ = true)
    {tx : PricePayload Public AssetId × Signature}
    (htx : tx ∈ (offchainWorker cfg localKeys sign env priceSource node).2)
    (origin : Origin AccountId) (env' : Env AccountId AssetId) :
    tx.1.blockNumber = env.blockNumber ∧ env.whitelist (cfg.intoAccount tx.1.public) = true ∧
      validateUnsigned cfg env' ucfg (.setPriceUnsigned origin tx.1) tx.2 =
        if InWindow env' ucfg tx.1 then admitPayload cfg env' ucfg tx.1 else some (.error .stale) := by
  obtain ⟨-, -, -, -, -, hb, -, hw, hs⟩ := mem_offchainWorker cfg localKeys sign htx
  refine ⟨hb, hw, ?_⟩
  have hv := hsign _ _ hs
  split
  · exact validateUnsigned_of_inWindow cfg env' ucfg origin hv ‹_›
  · exact validateUnsigned_of_not_inWindow cfg env' ucfg origin hv ‹_›

/-- The mock node's transaction for `EQ`, sent in block 4, judged in block 6. -/
theorem offchainWorker_sent_validity_mock :
    (∀ payload σ, Mock.signPayload payload = some σ →
      (Pallet.Mock.unsignedConfig fun _ (_ : Unit) => true).verify payload σ = true) ∧
      (⟨7, Pallet.Mock.EQ, FixedI64.one, 4⟩, ()) ∈ (offchainWorker Pallet.Mock.config [7] Mock.signPayload
        (Pallet.Mock.env 4 0) Mock.oneSource Mock.node).2 ∧
      ((⟨7, Pallet.Mock.EQ, FixedI64.one, 4⟩ : PricePayload Nat Nat).blockNumber = 4 ∧
        (Pallet.Mock.env 4 0).whitelist (Pallet.Mock.config.intoAccount 7) = true ∧
        validateUnsigned Pallet.Mock.config (Pallet.Mock.env 6 0)
            (Pallet.Mock.unsignedConfig fun _ (_ : Unit) => true)
            (.setPriceUnsigned .none ⟨7, Pallet.Mock.EQ, FixedI64.one, 4⟩) () =
          if InWindow (Pallet.Mock.env 6 0) (Pallet.Mock.unsignedConfig fun _ (_ : Unit) => true)
              (⟨7, Pallet.Mock.EQ, FixedI64.one, 4⟩ : PricePayload Nat Nat) then
            admitPayload Pallet.Mock.config (Pallet.Mock.env 6 0)
              (Pallet.Mock.unsignedConfig fun _ (_ : Unit) => true) ⟨7, Pallet.Mock.EQ, FixedI64.one, 4⟩
          else some (.error .stale)) :=
  have hmem : (⟨7, Pallet.Mock.EQ, FixedI64.one, 4⟩, ()) ∈ (offchainWorker Pallet.Mock.config [7]
      Mock.signPayload (Pallet.Mock.env 4 0) Mock.oneSource Mock.node).2 :=
    List.mem_of_mem_head? rfl
  ⟨fun _ _ _ => rfl, hmem,
    offchainWorker_sent_validity Pallet.Mock.config [7] Mock.signPayload _ (fun _ _ _ => rfl) hmem .none
      (Pallet.Mock.env 6 0)⟩

end Pool

/-! ## §5. Runs one after another. -/

section Runs

variable {AccountId AssetId AssetData Public Signature ExecId : Type} [DecidableEq ExecId]
  (cfg : Config AccountId AssetId AssetData Public) (localKeys : List Public)
  (sign : PricePayload Public AssetId → Option Signature)

/-- The worker without its lock, the design the lock protects: each tick, the scheduler's
    task, then what it sends. -/
def schedule (st : WorkerStore) : List (Tick AccountId AssetId AssetData) →
    WorkerStore × List (List (PricePayload Public AssetId × Signature))
  | [] => (st, [])
  | t :: ts =>
    let rest := schedule (workerTask st).1 ts
    (rest.1, (taskSent cfg localKeys sign t.env t.priceSource (workerTask st).2).getD [] :: rest.2)

/-- The scheduler's storage under `schedule` is the counter run of `runTicks`. -/
theorem schedule_fst (st : WorkerStore) :
    ∀ ticks : List (Tick AccountId AssetId AssetData),
      (schedule cfg localKeys sign st ticks).1 = runTicks st ticks.length
  | [] => rfl
  | _ :: ts => (schedule_fst (workerTask st).1 ts).trans (runTicks_succ' st ts.length).symm

omit [DecidableEq ExecId] in
/-- A source that never panics gives a task that never panics. -/
theorem taskSent_of_no_panic {env : Env AccountId AssetId}
    {priceSource : PriceSourcePeeker AssetId AssetData}
    (hnp : ∀ name, priceSource name cfg.assetGetter.assetsData ≠ none) :
    ∀ sourceType, ∃ sent : List (PricePayload Public AssetId × Signature),
      taskSent cfg localKeys sign env priceSource sourceType = some sent
  | none => ⟨[], rfl⟩
  | some name => by
    obtain ⟨r, hr⟩ := Option.ne_none_iff_exists'.mp (hnp name)
    simp [taskSent, updatePrices, getPrices, hr]

/-- From a wedged lock, runs send nothing and leave the storage as it is. -/
theorem runWorker_of_wedged {node : NodeStore ExecId} (h : Wedged node.lock) :
    ∀ ticks : List (Tick AccountId AssetId AssetData),
      runWorker cfg localKeys sign node ticks = (node, ticks.map fun _ => [])
  | [] => rfl
  | t :: ts => by
    simp only [runWorker, offchainWorker_of_wedged cfg localKeys sign h,
      runWorker_of_wedged h ts, List.map_cons]

/-- **After a panic, nothing until a restart.**  A run with a whitelisted key, a free lock and
    a stored execution id, whose scheduler fires and whose `PriceSource` panics, sends nothing
    but resets the scheduler's counter and leaves the lock set; every run after it, until the
    node restarts, sends nothing and leaves the node's storage as it is. -/
theorem runWorker_after_panic {t : Tick AccountId AssetId AssetData} {node : NodeStore ExecId}
    {e : ExecId} {name : List Char} (hs : (signerOf cfg localKeys sign t.env).canSign = true)
    (hexec : node.lock.execId = .ok e) (hfree : LockFree node.lock)
    (hfire : (workerTask node.worker).2 = some name)
    (hpanic : t.priceSource name cfg.assetGetter.assetsData = none)
    (ticks : List (Tick AccountId AssetId AssetData)) :
    ∃ lock, Wedged lock ∧
      runWorker cfg localKeys sign node (t :: ticks) =
        (⟨lock, (workerTask node.worker).1⟩, [] :: ticks.map fun _ => []) := by
  have hsent : taskSent cfg localKeys sign t.env t.priceSource (workerTask node.worker).2 = none := by
    simp [hfire, taskSent, updatePrices, getPrices, hpanic]
  obtain ⟨h1, h2, h3⟩ := offchainWorker_of_panic cfg localKeys sign hs hexec hfree hsent
  refine ⟨_, h3, ?_⟩
  simp only [runWorker, runWorker_of_wedged cfg localKeys sign h3, h1, ← h2]

/-- The mock node's run whose source panics, then a run with a source of price `1`: the second
    run sends nothing. -/
theorem runWorker_after_panic_mock :
    (signerOf Pallet.Mock.config [7] Mock.signPayload (Pallet.Mock.env 4 0)).canSign = true ∧
      Mock.node.lock.execId = .ok 1 ∧ LockFree Mock.node.lock ∧
      (workerTask Mock.node.worker).2 = some "custom".toList ∧
      (fun _ _ => none : PriceSourcePeeker Nat Unit) "custom".toList
        Pallet.Mock.config.assetGetter.assetsData = none ∧
      ∃ lock, Wedged lock ∧
        runWorker Pallet.Mock.config [7] Mock.signPayload Mock.node
            [⟨Pallet.Mock.env 4 0, fun _ _ => none⟩, ⟨Pallet.Mock.env 5 0, Mock.oneSource⟩] =
          (⟨lock, (workerTask Mock.node.worker).1⟩,
            [] :: [(⟨Pallet.Mock.env 5 0, Mock.oneSource⟩ : Tick Nat Nat Unit)].map fun _ => []) :=
  ⟨rfl, rfl, by decide, rfl, rfl,
    runWorker_after_panic Pallet.Mock.config [7] Mock.signPayload (by rfl) (by rfl) (by decide)
      (by rfl) (by rfl) _⟩

/-- **The lock is transparent to a lone worker that never panics** (refinement of `schedule`).
    From a free lock, over runs that each have a whitelisted key and whose `PriceSource` never
    panics, the worker sends, run by run, what `schedule` sends, its scheduler's storage
    follows `runTicks`, and the lock is free after every run. -/
theorem runWorker_eq_schedule :
    ∀ (ticks : List (Tick AccountId AssetId AssetData)) (node : NodeStore ExecId),
      LockFree node.lock → (∀ t ∈ ticks, (signerOf cfg localKeys sign t.env).canSign = true) →
      (∀ t ∈ ticks, ∀ name, t.priceSource name cfg.assetGetter.assetsData ≠ none) →
      (runWorker cfg localKeys sign node ticks).2 = (schedule cfg localKeys sign node.worker ticks).2 ∧
        (runWorker cfg localKeys sign node ticks).1.worker = runTicks node.worker ticks.length ∧
        LockFree (runWorker cfg localKeys sign node ticks).1.lock
  | [], node, hfree, _, _ => ⟨rfl, rfl, hfree⟩
  | t :: ts, node, hfree, hs, hnp => by
    obtain ⟨sent, hsent⟩ := taskSent_of_no_panic cfg localKeys sign
      (hnp t (List.mem_cons_self _ _)) (workerTask node.worker).2
    obtain ⟨h1, h2, h3⟩ := offchainWorker_of_lockFree cfg localKeys sign
      (hs t (List.mem_cons_self _ _)) hfree hsent
    obtain ⟨ih1, ih2, ih3⟩ := runWorker_eq_schedule ts _ h3
      (fun t' ht' => hs t' (List.mem_cons_of_mem _ ht')) (fun t' ht' => hnp t' (List.mem_cons_of_mem _ ht'))
    refine ⟨?_, ?_, ih3⟩
    · simp only [runWorker, schedule, ih1, h1, h2, hsent, Option.getD_some]
    · rw [runWorker, ih2, h2, List.length_cons, runTicks_succ']

/-- Two runs of the mock node with a source of price `1`. -/
theorem runWorker_eq_schedule_mock :
    LockFree Mock.node.lock ∧
      (∀ t ∈ [(⟨Pallet.Mock.env 4 0, Mock.oneSource⟩ : Tick Nat Nat Unit), ⟨Pallet.Mock.env 5 0, Mock.oneSource⟩],
        (signerOf Pallet.Mock.config [7] Mock.signPayload t.env).canSign = true) ∧
      (∀ t ∈ [(⟨Pallet.Mock.env 4 0, Mock.oneSource⟩ : Tick Nat Nat Unit), ⟨Pallet.Mock.env 5 0, Mock.oneSource⟩],
        ∀ name, t.priceSource name Pallet.Mock.config.assetGetter.assetsData ≠ none) ∧
      let ticks : List (Tick Nat Nat Unit) :=
        [⟨Pallet.Mock.env 4 0, Mock.oneSource⟩, ⟨Pallet.Mock.env 5 0, Mock.oneSource⟩]
      (runWorker Pallet.Mock.config [7] Mock.signPayload Mock.node ticks).2 =
          (schedule Pallet.Mock.config [7] Mock.signPayload Mock.node.worker ticks).2 ∧
        (runWorker Pallet.Mock.config [7] Mock.signPayload Mock.node ticks).1.worker =
          runTicks Mock.node.worker ticks.length ∧
        LockFree (runWorker Pallet.Mock.config [7] Mock.signPayload Mock.node ticks).1.lock :=
  have hnp : ∀ t ∈ [(⟨Pallet.Mock.env 4 0, Mock.oneSource⟩ : Tick Nat Nat Unit),
      ⟨Pallet.Mock.env 5 0, Mock.oneSource⟩],
      ∀ name, t.priceSource name Pallet.Mock.config.assetGetter.assetsData ≠ none := by
    simp only [List.mem_cons, List.mem_singleton, List.not_mem_nil, or_false]
    rintro t (rfl | rfl) name <;> exact Mock.oneSource_ne_none _ _
  ⟨by decide, by decide, hnp,
    runWorker_eq_schedule Pallet.Mock.config [7] Mock.signPayload _ Mock.node (by decide) (by decide) hnp⟩

end Runs

end EqOracle.Offchain
