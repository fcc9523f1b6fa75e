/-
  EqOracle.Pallet.Model
  ─────────────────────
  **THE MEDIANIZER: `pallets/eq-oracle/src/lib.rs` AS A STATE MACHINE.**

  The on-chain state of the pallet is one storage map, `PricePoints: AssetId → PriceData`.
  It changes through four entry points, each modelled from the source:

      set_price           (signed)   validate_params, then set_price_inner
      set_price_unsigned  (unsigned) validate_params on the payload, then set_price_inner
      on_initialize                  set_the_only_price for constant / correlated assets
      filter_prices_from(who)        strip `who`'s points, recompute or delete the entry

  and it starts from `GenesisConfig::build`.  The collaborators the pallet reads through its
  `Config` are split in two: what the runtime fixes (`Config`: the timeouts, the asset
  registry, the constant and correlation overlays, the price-setter account) and what may
  differ from call to call (`Env`: the block number and clock, the whitelist, the additional
  validator).  `AssetGetter` is modelled as the mock implements it, a list of distinct assets
  with their data.

  `dispatch` runs one call; a dispatchable that returns `Err` leaves the storage as it was
  (its only write is the `try_mutate` of `set_price_inner`, which commits on `Ok` alone), and
  a panicking `on_initialize` (an overflowing `Mul`) produces no state.  `Reachable` is the
  set of storages the calls reach from a genesis build.
-/
import EqOracle.BinarySearch

namespace EqOracle.Pallet

open FixedI64

/-! ## §1. Storage items and errors. -/

/-- `PricePoint`: one feeder's price, with the block and time it was added. -/
structure PricePoint (AccountId : Type) where
  blockNumber : Nat
  timestamp : Nat
  price : FixedI64
  accountId : AccountId
  deriving DecidableEq

/-- `PriceData`: the aggregate of one asset; `price_points` is kept ordered by price. -/
structure PriceData (AccountId : Type) where
  blockNumber : Nat
  timestamp : Nat
  price : FixedI64
  pricePoints : List (PricePoint AccountId)
  deriving DecidableEq

/-- `PriceData::default()`. -/
def PriceData.default {AccountId : Type} : PriceData AccountId := ⟨0, 0, zero, []⟩

/-- The pallet's `Error<T>`. -/
inductive Error where
  | additionalValidatorFailed
  | notAllowedToSubmitPrice
  | priceAlreadyAdded
  | currencyNotFound
  | wrongCurrency
  | priceIsZero
  | priceIsNegative
  | priceTimeout
  deriving DecidableEq, Repr

/-- `DispatchError`: a pallet error, an error another pallet returns (the asset getter's
    `DispatchError::Other`), or a wrong origin. -/
inductive DispatchError where
  | module (e : Error)
  | other (msg : String)
  | badOrigin
  deriving DecidableEq, Repr

/-- The storage of the pallet: the map `PricePoints`. -/
structure Storage (AccountId AssetId : Type) where
  pricePoints : AssetId → Option (PriceData AccountId)

/-- What a successful call tells the rest of the runtime: `OnPriceSet::on_price_set` and the
    `NewPrice` event. -/
inductive Effect (AccountId AssetId : Type) where
  | onPriceSet (asset : AssetId) (price : FixedI64)
  | newPrice (asset : AssetId) (price aggregated : FixedI64) (submitter : AccountId)
  deriving DecidableEq

variable {AccountId AssetId AssetData Public : Type} [DecidableEq AssetId]

namespace Storage

/-- `StorageMap::insert`. -/
def insert (s : Storage AccountId AssetId) (asset : AssetId) (v : PriceData AccountId) :
    Storage AccountId AssetId :=
  ⟨Function.update s.pricePoints asset (some v)⟩

/-- `StorageMap::mutate_exists`: `None` removes the entry. -/
def mutateExists (s : Storage AccountId AssetId) (asset : AssetId)
    (f : Option (PriceData AccountId) → Option (PriceData AccountId)) :
    Storage AccountId AssetId :=
  ⟨Function.update s.pricePoints asset (f (s.pricePoints asset))⟩

@[simp] theorem insert_self (s : Storage AccountId AssetId) (a : AssetId) (v) :
    (s.insert a v).pricePoints a = some v := by simp [insert]

@[simp] theorem insert_ne (s : Storage AccountId AssetId) {a b : AssetId} (v) (h : b ≠ a) :
    (s.insert a v).pricePoints b = s.pricePoints b := by simp [insert, h]

@[simp] theorem mutateExists_self (s : Storage AccountId AssetId) (a : AssetId) (f) :
    (s.mutateExists a f).pricePoints a = f (s.pricePoints a) := by simp [mutateExists]

@[simp] theorem mutateExists_ne (s : Storage AccountId AssetId) {a b : AssetId} (f)
    (h : b ≠ a) : (s.mutateExists a f).pricePoints b = s.pricePoints b := by
  simp [mutateExists, h]

end Storage

/-! ## §2. The collaborators. -/

/-- The `AssetGetter` collaborator as `AssetGetterMock` implements it: the registered assets
    with their data, each asset once. -/
structure AssetGetter (AssetId AssetData : Type) where
  assetsData : List (AssetId × AssetData)
  nodup : (assetsData.map Prod.fst).Nodup

namespace AssetGetter

/-- `get_assets`. -/
def getAssets (g : AssetGetter AssetId AssetData) : List AssetId := g.assetsData.map Prod.fst

/-- `get_asset_data`, failing with the mock's `DispatchError::Other("No asset")`. -/
def getAssetData (g : AssetGetter AssetId AssetData) (asset : AssetId) :
    Except DispatchError AssetData :=
  match g.assetsData.find? (fun e => e.1 = asset) with
  | some e => .ok e.2
  | none => .error (.other "No asset")

/-- `exists`: `get_asset_data(asset).is_ok()`. -/
def assetExists (g : AssetGetter AssetId AssetData) (asset : AssetId) : Bool :=
  match g.getAssetData asset with
  | .ok _ => true
  | .error _ => false

end AssetGetter

/-- What the runtime fixes in the pallet's `Config`. -/
structure Config (AccountId AssetId AssetData Public : Type) where
  /-- `PriceTimeout`: how long, in seconds, a price point takes part in the median (a `u64`). -/
  priceTimeout : Nat
  /-- `MedianPriceTimeout`: how long the aggregate may be read (a `u64`). -/
  medianPriceTimeout : Nat
  assetGetter : AssetGetter AssetId AssetData
  /-- `SpecialPrices`: constant prices, e.g. `Price[EQD] = 1`. -/
  specialPrices : AssetId → AssetData → Option FixedI64
  /-- `DirectPriceCorrelation`: `Price[a] = factor · Price[b]`. -/
  directPriceCorrelation : AssetId → AssetData → Option (AssetId × FixedI64)
  /-- The account decoded from `b"oracle::price_setter"` (zero-padded input never fails to
      decode, so the `expect` of `set_the_only_price` is unreachable). -/
  priceSetter : AccountId
  /-- `IdentifyAccount::into_account` of a payload's public key. -/
  intoAccount : Public → AccountId

/-- What a call reads from the rest of the runtime. -/
structure Env (AccountId AssetId : Type) where
  /-- `frame_system::Pallet::block_number()`. -/
  blockNumber : Nat
  /-- `UnixTime::now().as_secs()`. -/
  now : Nat
  /-- `Whitelist::contains`. -/
  whitelist : AccountId → Bool
  /-- `AdditionalParamsValidator::validate_params`. -/
  additionalValidator : AccountId → AssetId → FixedI64 → Nat → Except String Unit

/-! ## §3. The pallet's functions. -/

section Functions

variable [DecidableEq AccountId] (cfg : Config AccountId AssetId AssetData Public)
  (env : Env AccountId AssetId)

/-- `validate_params`, checks in the source's order, the first failure wins. -/
def validateParams (who : AccountId) (asset : AssetId) (price : FixedI64) (blockNumber : Nat) :
    Except DispatchError Unit :=
  match env.additionalValidator who asset price blockNumber with
  | .error _ => .error (.module .additionalValidatorFailed)
  | .ok () =>
    if !env.whitelist who then .error (.module .notAllowedToSubmitPrice) else
    match cfg.assetGetter.getAssetData asset with
    | .error err => .error err
    | .ok assetData =>
      if (cfg.specialPrices asset assetData).isSome ||
          (cfg.directPriceCorrelation asset assetData).isSome then
        .error (.module .wrongCurrency)
      else if price.isNegative then .error (.module .priceIsNegative)
      else if price.isZero then .error (.module .priceIsZero)
      else if !cfg.assetGetter.assetExists asset then .error (.module .wrongCurrency)
      else .ok ()

/-- The median of a list of prices sorted ascending: the middle one for an odd length, for an
    even length `(x[len/2 - 1] + x[len/2]) / 2` (`FixedI64.add`, then `divTwo`, which is what
    `/ saturating_from_integer(2)` computes by `checkedDiv_two`).  The list is non-empty, so
    every index read is in bounds. -/
def medianPrice (prices : List FixedI64) (h : prices ≠ []) : FixedI64 :=
  if prices.length % 2 = 0 then
    divTwo (add (prices.get ⟨prices.length / 2 - 1, by
        have := List.length_pos.mpr h; omega⟩)
      (prices.get ⟨prices.length / 2, by have := List.length_pos.mpr h; omega⟩))
  else prices.get ⟨prices.length / 2, by have := List.length_pos.mpr h; omega⟩

/-- `calc_median_price`: the median of the prices of **sorted** data points. -/
def calcMedianPrice (dataPoints : List (PricePoint AccountId)) (h : dataPoints ≠ []) :
    FixedI64 :=
  medianPrice (dataPoints.map (·.price)) (by simpa using h)

/-- The duplicate check of `set_price_inner`: the entry was last written in this block and
    holds a point of `who` from this block. -/
def IsDuplicate (priceData : PriceData AccountId) (who : AccountId) : Prop :=
  priceData.blockNumber = env.blockNumber ∧
    ∃ pp ∈ priceData.pricePoints, pp.accountId = who ∧ pp.blockNumber = env.blockNumber

instance (priceData : PriceData AccountId) (who : AccountId) :
    Decidable (IsDuplicate env priceData who) :=
  inferInstanceAs (Decidable (_ ∧ _))

/-- The points `set_price_inner` keeps: `pp.timestamp + PriceTimeout > timestamp` and
    `pp.account_id != who`.  The sum is of `u64`s, which a release build wraps past
    `u64::MAX`. -/
def retained (who : AccountId) (points : List (PricePoint AccountId)) :
    List (PricePoint AccountId) :=
  points.filter (fun pp => (pp.timestamp + cfg.priceTimeout) % 2 ^ 64 > env.now ∧ pp.accountId ≠ who)

/-- The entry `set_price_inner` writes when the duplicate check passes. -/
def updatedPriceData (who : AccountId) (price : FixedI64) (priceData : PriceData AccountId) :
    PriceData AccountId :=
  let kept := retained cfg env who priceData.pricePoints
  let dataPoint : PricePoint AccountId := ⟨env.blockNumber, env.now, price, who⟩
  let pos := insertPos (binarySearchBy kept (fun dp => dp.price.cmp price))
  let pricePoints := kept.insertIdx pos dataPoint
  ⟨env.blockNumber, env.now,
    calcMedianPrice pricePoints (insertIdx_ne_nil dataPoint (length_binarySearchBy_pos _ _)),
    pricePoints⟩

/-- `set_price_inner`: inside `try_mutate`, reject a duplicate, else evict timed-out points and
    `who`'s own point, insert the new point by binary search, recompute the median; after the
    mutation, `on_price_set(asset, price)` and the `NewPrice` event. -/
def setPriceInner (who : AccountId) (asset : AssetId) (price : FixedI64)
    (s : Storage AccountId AssetId) :
    Except DispatchError (Storage AccountId AssetId × List (Effect AccountId AssetId)) :=
  let priceData := (s.pricePoints asset).getD PriceData.default
  if IsDuplicate env priceData who then .error (.module .priceAlreadyAdded)
  else
    let priceData' := updatedPriceData cfg env who price priceData
    .ok (s.insert asset priceData',
      [.onPriceSet asset price, .newPrice asset price priceData'.price who])

/-- `set_the_only_price`: one synthetic point of the price-setter account. -/
def setTheOnlyPrice (asset : AssetId) (price : FixedI64) (s : Storage AccountId AssetId) :
    Storage AccountId AssetId × List (Effect AccountId AssetId) :=
  let pricePoint : PricePoint AccountId := ⟨env.blockNumber, env.now, price, cfg.priceSetter⟩
  (s.insert asset ⟨env.blockNumber, env.now, price, [pricePoint]⟩,
    [.onPriceSet asset price, .newPrice asset price price cfg.priceSetter])

/-- `PriceGetter::get_price`; `timestamp + MedianPriceTimeout` is a `u64` sum, which a release
    build wraps. -/
def getPrice (s : Storage AccountId AssetId) (asset : AssetId) : Except DispatchError FixedI64 :=
  match s.pricePoints asset with
  | none => .error (.module .currencyNotFound)
  | some pricePoint =>
    if env.now ≥ (pricePoint.timestamp + cfg.medianPriceTimeout) % 2 ^ 64 then
      .error (.module .priceTimeout)
    else if pricePoint.price.isZero then .error (.module .priceIsZero)
    else if pricePoint.price.isNegative then .error (.module .priceIsNegative)
    else .ok pricePoint.price

/-- The closure `filter_prices_from` gives `mutate_exists`. -/
def filterEntry (who : AccountId) : Option (PriceData AccountId) → Option (PriceData AccountId)
  | none => none
  | some priceData =>
    let pricePoints := priceData.pricePoints.filter (fun pp => pp.accountId ≠ who)
    if h : pricePoints.length = 0 then none
    else if pricePoints.length ≠ priceData.pricePoints.length then
      some { priceData with
        price := calcMedianPrice pricePoints (fun e => h (by rw [e]; rfl))
        pricePoints := pricePoints }
    else some { priceData with pricePoints := pricePoints }

/-- `filter_prices_from`: for every asset of `get_assets()`. -/
def filterPricesFrom (who : AccountId) (s : Storage AccountId AssetId) :
    Storage AccountId AssetId :=
  cfg.assetGetter.getAssets.foldl (fun s asset => s.mutateExists asset (filterEntry who)) s

/-- One asset of `on_initialize`: a constant price, else a correlated one if the reference
    price can be read.  `correlation * price` panics on overflow (`none`). -/
def onInitializeAsset (acc : Storage AccountId AssetId × List (Effect AccountId AssetId))
    (asset : AssetId × AssetData) :
    Option (Storage AccountId AssetId × List (Effect AccountId AssetId)) :=
  match cfg.specialPrices asset.1 asset.2 with
  | some price =>
    let r := setTheOnlyPrice cfg env asset.1 price acc.1
    some (r.1, acc.2 ++ r.2)
  | none =>
    match cfg.directPriceCorrelation asset.1 asset.2 with
    | none => some acc
    | some (corrAsset, correlation) =>
      match getPrice cfg env acc.1 corrAsset with
      | .error _ => some acc
      | .ok price =>
        match checkedMul correlation price with
        | none => none
        | some p =>
          let r := setTheOnlyPrice cfg env asset.1 p acc.1
          some (r.1, acc.2 ++ r.2)

/-- `on_initialize`, over `get_assets_data()`. -/
def onInitialize (s : Storage AccountId AssetId) :
    Option (Storage AccountId AssetId × List (Effect AccountId AssetId)) :=
  cfg.assetGetter.assetsData.foldlM (onInitializeAsset cfg env) (s, [])

end Functions

/-- `GenesisConfig::build`: a default entry for every asset, then the configured prices. -/
def genesisBuild (cfg : Config AccountId AssetId AssetData Public)
    (prices : List (AssetId × FixedI64)) (updateDate : Nat) : Storage AccountId AssetId :=
  let s₀ := cfg.assetGetter.getAssets.foldl (fun s asset => s.insert asset PriceData.default)
    ⟨fun _ => none⟩
  prices.foldl (fun s e => s.insert e.1 { PriceData.default with timestamp := updateDate, price := e.2 }) s₀

/-! ## §4. Dispatch. -/

/-- A call's origin. -/
inductive Origin (AccountId : Type) where
  | root
  | signed (who : AccountId)
  | none

/-- `PricePayload` (the signature beside it is not read by the dispatchable). -/
structure PricePayload (Public AssetId : Type) where
  public : Public
  asset : AssetId
  price : FixedI64
  blockNumber : Nat

/-- The calls that change `PricePoints`. -/
inductive Call (AccountId AssetId Public : Type) where
  | setPrice (origin : Origin AccountId) (asset : AssetId) (price : FixedI64)
  | setPriceUnsigned (origin : Origin AccountId) (payload : PricePayload Public AssetId)
  | onInitialize
  | filterPricesFrom (who : AccountId)

section Dispatch

variable [DecidableEq AccountId] (cfg : Config AccountId AssetId AssetData Public)
  (env : Env AccountId AssetId)

/-- The body the two dispatchables share: `validate_params(who, asset, price, block)?`, then
    `set_price_inner(who, asset, price)`. -/
def submitPrice (who : AccountId) (asset : AssetId) (price : FixedI64) (validationBlock : Nat)
    (s : Storage AccountId AssetId) :
    Except DispatchError (Storage AccountId AssetId × List (Effect AccountId AssetId)) :=
  match validateParams cfg env who asset price validationBlock with
  | .error err => .error err
  | .ok () => setPriceInner cfg env who asset price s

/-- `set_price`: `ensure_signed`, then validation at the current block. -/
def setPrice (origin : Origin AccountId) (asset : AssetId) (price : FixedI64)
    (s : Storage AccountId AssetId) :
    Except DispatchError (Storage AccountId AssetId × List (Effect AccountId AssetId)) :=
  match origin with
  | .signed who => submitPrice cfg env who asset price env.blockNumber s
  | _ => .error .badOrigin

/-- `set_price_unsigned`: `ensure_none`, then validation at the payload's block number
    (`set_price_inner` still reads the current block). -/
def setPriceUnsigned (origin : Origin AccountId) (payload : PricePayload Public AssetId)
    (s : Storage AccountId AssetId) :
    Except DispatchError (Storage AccountId AssetId × List (Effect AccountId AssetId)) :=
  match origin with
  | .none => submitPrice cfg env (cfg.intoAccount payload.public) payload.asset payload.price
      payload.blockNumber s
  | _ => .error .badOrigin

/-- What a call leaves behind. -/
structure Outcome (AccountId AssetId : Type) where
  storage : Storage AccountId AssetId
  effects : List (Effect AccountId AssetId)
  result : Except DispatchError Unit

/-- A dispatchable's outcome: its writes and effects on `Ok`, nothing on `Err`. -/
def Outcome.ofResult (s : Storage AccountId AssetId) :
    Except DispatchError (Storage AccountId AssetId × List (Effect AccountId AssetId)) →
      Outcome AccountId AssetId
  | .ok r => ⟨r.1, r.2, .ok ()⟩
  | .error err => ⟨s, [], .error err⟩

/-- One call; `none` when it panics. -/
def dispatch (s : Storage AccountId AssetId) : Call AccountId AssetId Public →
    Option (Outcome AccountId AssetId)
  | .setPrice origin asset price => some (.ofResult s (setPrice cfg env origin asset price s))
  | .setPriceUnsigned origin payload => some (.ofResult s (setPriceUnsigned cfg env origin payload s))
  | .onInitialize => (onInitialize cfg env s).map fun r => ⟨r.1, r.2, .ok ()⟩
  | .filterPricesFrom who => some ⟨filterPricesFrom cfg who s, [], .ok ()⟩

/-- The submission a call makes when its origin is the right one: submitter, asset, price,
    and the block number `validate_params` is given. -/
def Call.submission : Call AccountId AssetId Public → Option (AccountId × AssetId × FixedI64 × Nat)
  | .setPrice (.signed who) asset price => some (who, asset, price, env.blockNumber)
  | .setPriceUnsigned .none payload =>
    some (cfg.intoAccount payload.public, payload.asset, payload.price, payload.blockNumber)
  | _ => none

end Dispatch

/-- The storages reachable from a genesis build by any calls, in any environments. -/
inductive Reachable [DecidableEq AccountId] (cfg : Config AccountId AssetId AssetData Public) :
    Storage AccountId AssetId → Prop
  | genesis (prices : List (AssetId × FixedI64)) (updateDate : Nat) :
      Reachable cfg (genesisBuild cfg prices updateDate)
  | step {s : Storage AccountId AssetId} {o : Outcome AccountId AssetId}
      (env : Env AccountId AssetId) (call : Call AccountId AssetId Public) :
      Reachable cfg s → dispatch cfg env s call = some o → Reachable cfg o.storage

/-! ## §5. The mock runtime (`mock.rs`). -/

namespace Mock

/-- The assets of `mock.rs` (`primitives::Asset`, an `u64` of the packed ticker). -/
def EQ : Nat := 0x6571
def EQD : Nat := 0x657164
def BTC : Nat := 0x627463
def ETH : Nat := 0x657468
def DOT : Nat := 0x646F74
def XDOT : Nat := 0x78646F74
def HDOT : Nat := 0x68646f74
def LP_XDOT : Nat := 0x786C707430
def LP_CURVE : Nat := 0x6C707430

/-- `AssetGetterMock` after `new_test_ext`: `EQD, BTC, ETH, DOT, EQ`, kept sorted. -/
def assetGetter : AssetGetter Nat Unit :=
  ⟨[(EQ, ()), (BTC, ()), (DOT, ()), (EQD, ()), (ETH, ())], by decide⟩

/-- The mock's `SpecialPrices`. -/
def specialPrices (a : Nat) (_ : Unit) : Option FixedI64 :=
  if a = EQD then some one
  else if a = LP_CURVE ∨ a = LP_XDOT then some (add one one) else none

/-- The mock's `DirectPriceCorrelation`. -/
def directPriceCorrelation (a : Nat) (_ : Unit) : Option (Nat × FixedI64) :=
  if a = XDOT ∨ a = HDOT then some (DOT, one) else none

/-- The account `oracle::price_setter` decodes to: the 20 bytes of the string, zero-padded to
    32 (read big-endian). -/
def priceSetter : Nat := 0x6f7261636c653a3a70726963655f736574746572 * 2 ^ 96

/-- `eq_oracle::Config for Test`, with accounts and public keys as numbers. -/
def config : Config Nat Nat Unit Nat :=
  ⟨1, 60 * 60 * 2, assetGetter, specialPrices, directPriceCorrelation, priceSetter, id⟩

/-- A block of the mock: every account whitelisted, `AdditionalParamsValidator = ()`. -/
def env (blockNumber now : Nat) : Env Nat Nat :=
  ⟨blockNumber, now, fun _ => true, fun _ _ _ _ => .ok ()⟩

/-- `new_test_ext`: the genesis build with no configured prices. -/
def genesis : Storage Nat Nat := genesisBuild config [] 0

/-- The storage after a signed `set_price` of the mock in block `b` at time `now`. -/
def submit (s : Storage Nat Nat) (b now who asset : Nat) (price : FixedI64) : Storage Nat Nat :=
  (Outcome.ofResult s (setPrice config (env b now) (.signed who) asset price s)).storage

/-- Feeders 1 and 2 submit `EQ` at 1 and 3 in block 1 of the mock. -/
def twoFeeders : Storage Nat Nat :=
  submit (submit genesis 1 0 1 EQ one) 1 0 2 EQ (saturatingFromInteger 3)

/-- The mock runtime with `PriceTimeout = u64::MAX`, the largest value its type admits. -/
def maxTimeoutConfig : Config Nat Nat Unit Nat := { config with priceTimeout := 2 ^ 64 - 1 }

/-- The storage after a signed `set_price` under `maxTimeoutConfig`. -/
def submitMaxTimeout (s : Storage Nat Nat) (b now who asset : Nat) (price : FixedI64) :
    Storage Nat Nat :=
  (Outcome.ofResult s (setPrice maxTimeoutConfig (env b now) (.signed who) asset price s)).storage

end Mock

end EqOracle.Pallet
