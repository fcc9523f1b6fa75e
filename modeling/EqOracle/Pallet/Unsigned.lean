/-
  EqOracle.Pallet.Unsigned
  ────────────────────────
  **`validate_unsigned`: WHAT THE TRANSACTION POOL ADMITS.**

  The offchain worker sends its prices as unsigned `set_price_unsigned` transactions.  Before a
  node puts one in its pool, and again before a block includes it, `validate_unsigned` checks
  the payload's signature, that the payload's block number lies in the lifetime window
  `[current − UnsignedLifetimeInBlocks, current]`, and `validate_params` at the payload's
  block; it then gives the transaction a priority and the tag `(public, asset)`.  The
  priority is `initial ⊕ (block % MinTransactionWeight)` with `u64` saturation, and the `%`
  panics when the weight is zero (`none`).

  Main results:
    * `validateUnsigned_of_not_inWindow` — a correctly signed payload outside the window is
      `Stale`;
    * `validateUnsigned_of_inWindow` — a correctly signed payload inside the window is judged
      by `validate_params` alone.
-/
import EqOracle.Pallet.Spec

namespace EqOracle.Pallet

open FixedI64

/-! ## §1. The transaction-validity types. -/

/-- The `InvalidTransaction` reasons `validate_unsigned` gives. -/
inductive InvalidTransaction where
  | badProof
  | stale
  | call
  deriving DecidableEq, Repr

/-- `ValidTransaction` as `ValidTransaction::with_tag_prefix("EqOracleSetPrice")` builds it:
    `provides` holds the tags under that prefix, `requires` is empty and left out. -/
structure ValidTransaction (Public AssetId : Type) where
  priority : Nat
  provides : List (Public × AssetId)
  longevity : Nat
  propagate : Bool
  deriving DecidableEq, Repr

/-- What `validate_unsigned` reads from the runtime beyond `validate_params`. -/
structure UnsignedConfig (Public AssetId Signature : Type) where
  /-- `UnsignedPriority`: `(TransactionPriority, MinTransactionWeight)`. -/
  unsignedPriority : Nat × Nat
  /-- `UnsignedLifetimeInBlocks`. -/
  unsignedLifetimeInBlocks : Nat
  /-- `SignedPayload::verify::<AuthorityId>`: the signature is the payload's public key's. -/
  verify : PricePayload Public AssetId → Signature → Bool

/-- `u64::MAX`, the bound of `TransactionPriority`. -/
def u64Max : Nat := 2 ^ 64 - 1

/-- `u64::saturating_add`. -/
def saturatingAdd (a b : Nat) : Nat := min (a + b) u64Max

/-- `TryInto::<u64>::try_into(n).unwrap_or(0)`. -/
def toU64OrZero (n : Nat) : Nat := if n ≤ u64Max then n else 0

namespace Mock

/-- The mock's `UnsignedPriority = (0, 1_000_000)` and `UnsignedLifetimeInBlocks = 5`; the
    signature check of `TestAuthId` is given. -/
def unsignedConfig {Signature : Type} (verify : PricePayload Nat Nat → Signature → Bool) :
    UnsignedConfig Nat Nat Signature :=
  ⟨(0, 1000000), 5, verify⟩

end Mock

/-! ## §2. `validate_unsigned`. -/

section Validate

variable {AccountId AssetId AssetData Public Signature : Type} [DecidableEq AccountId]
  [DecidableEq AssetId] (cfg : Config AccountId AssetId AssetData Public)
  (env : Env AccountId AssetId) (ucfg : UnsignedConfig Public AssetId Signature)

/-- The transaction `validate_unsigned` builds for an admitted payload. -/
def validTransaction (payload : PricePayload Public AssetId) : ValidTransaction Public AssetId :=
  ⟨saturatingAdd ucfg.unsignedPriority.1 (toU64OrZero payload.blockNumber % ucfg.unsignedPriority.2),
    [(payload.public, payload.asset)], 5, true⟩

/-- The end of `validate_unsigned`, once the signature and the window have passed:
    `validate_params` at the payload's block (any error is `Call`), then the priority, whose
    `%` panics on a zero `MinTransactionWeight` (`none`). -/
def admitPayload (payload : PricePayload Public AssetId) :
    Option (Except InvalidTransaction (ValidTransaction Public AssetId)) :=
  match validateParams cfg env (cfg.intoAccount payload.public) payload.asset payload.price
      payload.blockNumber with
  | .error _ => some (.error .call)
  | .ok () =>
    if ucfg.unsignedPriority.2 = 0 then none
    else some (.ok (validTransaction ucfg payload))

/-- `validate_unsigned`; `signature` is the `signature` field of `set_price_unsigned`, which
    `Call` leaves out because the dispatchable never reads it.  `payload.block_number +
    UnsignedLifetimeInBlocks` is a sum of `T::BlockNumber`s (`u64` in the mock), taken exact
    here: that is what the code computes for every payload block up to `BlockNumber::MAX −
    UnsignedLifetimeInBlocks`.  Past it a release build wraps the sum, which then lies below
    the payload's block, so the payload is `Stale` where this model judges it by
    `admitPayload`. -/
def validateUnsigned (call : Call AccountId AssetId Public) (signature : Signature) :
    Option (Except InvalidTransaction (ValidTransaction Public AssetId)) :=
  match call with
  | .setPriceUnsigned _ payload =>
    if !ucfg.verify payload signature then some (.error .badProof)
    else if payload.blockNumber > env.blockNumber then some (.error .stale)
    else if payload.blockNumber + ucfg.unsignedLifetimeInBlocks < env.blockNumber then
      some (.error .stale)
    else admitPayload cfg env ucfg payload
  | _ => some (.error .call)

/-- The payload's block lies in the lifetime window that ends at the current block. -/
def InWindow (payload : PricePayload Public AssetId) : Prop :=
  payload.blockNumber ≤ env.blockNumber ∧
    env.blockNumber ≤ payload.blockNumber + ucfg.unsignedLifetimeInBlocks

instance (payload : PricePayload Public AssetId) : Decidable (InWindow env ucfg payload) :=
  inferInstanceAs (Decidable (_ ∧ _))

omit [DecidableEq AccountId] in
/-- A correctly signed payload outside the window is `Stale`. -/
theorem validateUnsigned_of_not_inWindow {payload : PricePayload Public AssetId}
    {signature : Signature} (origin : Origin AccountId)
    (hsig : ucfg.verify payload signature = true) (hw : ¬ InWindow env ucfg payload) :
    validateUnsigned cfg env ucfg (.setPriceUnsigned origin payload) signature =
      some (.error .stale) := by
  unfold InWindow at hw
  by_cases hlo : payload.blockNumber > env.blockNumber
  · simp [validateUnsigned, hsig, hlo]
  · have hhi : payload.blockNumber + ucfg.unsignedLifetimeInBlocks < env.blockNumber := by omega
    simp [validateUnsigned, hsig, hlo, hhi]

omit [DecidableEq AccountId] in
/-- A correctly signed payload inside the window is judged by `validate_params` at its block,
    and by the weight's `%`. -/
theorem validateUnsigned_of_inWindow {payload : PricePayload Public AssetId}
    {signature : Signature} (origin : Origin AccountId)
    (hsig : ucfg.verify payload signature = true) (hw : InWindow env ucfg payload) :
    validateUnsigned cfg env ucfg (.setPriceUnsigned origin payload) signature =
      admitPayload cfg env ucfg payload := by
  obtain ⟨hlo, hhi⟩ := hw
  simp only [validateUnsigned, hsig, Bool.not_true, if_neg (Bool.false_ne_true),
    if_neg (Nat.not_lt.mpr hlo), if_neg (Nat.not_lt.mpr hhi)]

end Validate

end EqOracle.Pallet
