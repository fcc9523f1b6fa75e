/-
  EqOracle.Pallet.Events
  ──────────────────────
  **WHAT A CALL ANNOUNCES IS WHAT IT STORED.**

  `set_price_inner` and `set_the_only_price` end with `on_price_set(asset, price)`, the
  runtime's `OnPriceSet` hook, and the event `NewPrice(asset, price, aggregated, who)`; a
  call's `effects` lists them in order.  The hook's implementations and whoever reads the
  events see these instead of `PricePoints`, so they must agree with what the call leaves
  there: the aggregate an event reports is the one stored for its asset once the call is
  over, and the price it reports is a point of the call's block and time.

  For a submission this is one write.  `on_initialize` writes asset after asset in one fold,
  and an announcement made early in the fold has to survive the writes after it; it does
  because the registry names each asset once (`AssetGetter.nodup`).

  Main results:
    * `onInitialize_effects_agree` — every announcement of `on_initialize` agrees with the
      storage after the whole fold;
    * `dispatch_effects_agree` — for every call from every state, every announcement agrees
      with the storage the call leaves.
-/
import EqOracle.Pallet.Positive

namespace EqOracle.Pallet

open FixedI64

variable {AccountId AssetId AssetData Public : Type} [DecidableEq AccountId] [DecidableEq AssetId]

/-! ## §1. What an announcement says. -/

/-- The asset an effect is about. -/
def Effect.asset : Effect AccountId AssetId → AssetId
  | .onPriceSet asset _ => asset
  | .newPrice asset _ _ _ => asset

/-- What an effect says of the storage `s` a call in `env` leaves.  `on_price_set(asset,
    price)`: `asset` holds a point at `price` of the call's block and time.  `NewPrice(asset,
    price, aggregated, who)`: `asset`'s aggregate is `aggregated`, and it holds `who`'s point at
    `price` of the call's block and time. -/
def Effect.Agrees (env : Env AccountId AssetId) (s : Storage AccountId AssetId) :
    Effect AccountId AssetId → Prop
  | .onPriceSet asset price => ∃ pd ∈ s.pricePoints asset, ∃ pp ∈ pd.pricePoints,
      pp.blockNumber = env.blockNumber ∧ pp.timestamp = env.now ∧ pp.price = price
  | .newPrice asset price aggregated who => ∃ pd ∈ s.pricePoints asset, pd.price = aggregated ∧
      (⟨env.blockNumber, env.now, price, who⟩ : PricePoint AccountId) ∈ pd.pricePoints

instance (env : Env AccountId AssetId) (s : Storage AccountId AssetId) :
    ∀ e : Effect AccountId AssetId, Decidable (e.Agrees env s)
  | .onPriceSet .. => inferInstanceAs (Decidable (∃ _ ∈ _, _))
  | .newPrice .. => inferInstanceAs (Decidable (∃ _ ∈ _, _))

omit [DecidableEq AccountId] in
/-- An announcement about another asset survives a write. -/
theorem Effect.Agrees.insert_ne {env : Env AccountId AssetId} {s : Storage AccountId AssetId}
    {e : Effect AccountId AssetId} (h : e.Agrees env s) {a : AssetId} (hne : e.asset ≠ a)
    (v : PriceData AccountId) : e.Agrees env (s.insert a v) := by
  cases e <;> simp only [Effect.asset] at hne <;>
    simpa only [Effect.Agrees, Storage.insert_ne s v hne] using h

/-! ## §2. The writes that announce. -/

section Writes

variable (cfg : Config AccountId AssetId AssetData Public) (env : Env AccountId AssetId)

omit [DecidableEq AccountId] in
/-- A write that stores `pd` for `asset` and announces `price` from `who`, with `who`'s point at
    `price` among `pd`'s points: both announcements agree. -/
theorem announce_agrees {s : Storage AccountId AssetId} {asset : AssetId} (pd : PriceData AccountId)
    {price : FixedI64} {who : AccountId}
    (hpp : (⟨env.blockNumber, env.now, price, who⟩ : PricePoint AccountId) ∈ pd.pricePoints) :
    ∀ e ∈ ([.onPriceSet asset price, .newPrice asset price pd.price who] : List (Effect AccountId AssetId)),
      e.asset = asset ∧ e.Agrees env (s.insert asset pd) := by
  simp only [List.mem_cons, List.mem_singleton, List.not_mem_nil, or_false]
  rintro e (rfl | rfl)
  · exact ⟨rfl, pd, Storage.insert_self .., _, hpp, rfl, rfl, rfl⟩
  · exact ⟨rfl, pd, Storage.insert_self .., rfl, hpp⟩

/-- `set_price_inner` announces its asset, in agreement with the storage it leaves. -/
theorem setPriceInner_effects_agree {who : AccountId} {asset : AssetId} {price : FixedI64}
    {s : Storage AccountId AssetId}
    {r : Storage AccountId AssetId × List (Effect AccountId AssetId)}
    (h : setPriceInner cfg env who asset price s = .ok r) :
    ∀ e ∈ r.2, e.asset = asset ∧ e.Agrees env r.1 := by
  rw [setPriceInner_eq] at h
  split at h
  · cases h
  · cases h
    exact announce_agrees env _ ((mem_updatedPriceData cfg env who price).mpr (.inr rfl))

omit [DecidableEq AccountId] in
/-- `set_the_only_price` announces its asset, in agreement with the storage it leaves. -/
theorem setTheOnlyPrice_effects_agree (asset : AssetId) (price : FixedI64)
    (s : Storage AccountId AssetId) :
    ∀ e ∈ (setTheOnlyPrice cfg env asset price s).2,
      e.asset = asset ∧ e.Agrees env (setTheOnlyPrice cfg env asset price s).1 :=
  announce_agrees env ⟨env.blockNumber, env.now, price, [⟨env.blockNumber, env.now, price, cfg.priceSetter⟩]⟩
    (List.mem_singleton_self _)

theorem submitPrice_effects_agree {who : AccountId} {asset : AssetId} {price : FixedI64} {vb : Nat}
    {s : Storage AccountId AssetId}
    {r : Storage AccountId AssetId × List (Effect AccountId AssetId)}
    (h : submitPrice cfg env who asset price vb s = .ok r) : ∀ e ∈ r.2, e.Agrees env r.1 := by
  unfold submitPrice at h
  split at h
  · cases h
  · exact fun e he => (setPriceInner_effects_agree cfg env h e he).2

end Writes

/-! ## §3. `on_initialize`, and every call. -/

section Calls

variable (cfg : Config AccountId AssetId AssetData Public) (env : Env AccountId AssetId)

omit [DecidableEq AccountId] in
/-- Through `on_initialize`'s fold: the announcements made so far, each about an asset the rest
    of the fold does not visit, agree with the storage at its end. -/
theorem foldlM_onInitializeAsset_effects :
    ∀ (l : List (AssetId × AssetData)) (acc r : Storage AccountId AssetId × List (Effect AccountId AssetId)),
      (l.map Prod.fst).Nodup → (∀ x ∈ acc.2, x.Agrees env acc.1 ∧ x.asset ∉ l.map Prod.fst) →
        l.foldlM (onInitializeAsset cfg env) acc = some r → ∀ x ∈ r.2, x.Agrees env r.1
  | [], _, _, _, hacc, h => by cases h; exact fun x hx => (hacc x hx).1
  | e :: l, acc, r, hnd, hacc, h => by
    simp only [List.foldlM_cons, Option.bind_eq_bind, Option.bind_eq_some] at h
    obtain ⟨acc', h1, h2⟩ := h
    rw [List.map_cons, List.nodup_cons] at hnd
    simp only [List.map_cons, List.mem_cons, not_or] at hacc
    refine foldlM_onInitializeAsset_effects l acc' r hnd.2 ?_ h2
    rcases onInitializeAsset_cases cfg env acc e with he | ⟨p, he⟩ | ⟨he, -⟩ <;> rw [he] at h1 <;>
      cases h1
    · exact fun x hx => ⟨(hacc x hx).1, (hacc x hx).2.2⟩
    · intro x hx
      rcases List.mem_append.mp hx with hx | hx
      · exact ⟨(hacc x hx).1.insert_ne (hacc x hx).2.1 _, (hacc x hx).2.2⟩
      · obtain ⟨hasset, hag⟩ := setTheOnlyPrice_effects_agree cfg env e.1 p acc.1 x hx
        exact ⟨hag, hasset ▸ hnd.1⟩

omit [DecidableEq AccountId] in
/-- **Every announcement of `on_initialize` agrees with the storage it leaves**: each constant
    or correlated price it publishes is the aggregate stored for its asset after the whole
    fold. -/
theorem onInitialize_effects_agree {s : Storage AccountId AssetId}
    {r : Storage AccountId AssetId × List (Effect AccountId AssetId)}
    (h : onInitialize cfg env s = some r) : ∀ x ∈ r.2, x.Agrees env r.1 :=
  foldlM_onInitializeAsset_effects cfg env _ (s, []) r cfg.assetGetter.nodup (fun _ hx => by cases hx) h

/-- **What a call announces is what it stored.**  For every call from every state, every
    `on_price_set(asset, price)` it makes and every `NewPrice(asset, price, aggregated, who)` it
    emits agree with the storage it leaves: the aggregate reported is the one stored for the
    asset, and the price reported is a point of the call's block and time. -/
theorem dispatch_effects_agree {s : Storage AccountId AssetId} {call : Call AccountId AssetId Public}
    {o : Outcome AccountId AssetId} (h : dispatch cfg env s call = some o) :
    ∀ x ∈ o.effects, x.Agrees env o.storage := by
  cases call with
  | setPrice origin asset price =>
    cases h
    cases hr : setPrice cfg env origin asset price s with
    | error _ => exact fun _ hx => by cases hx
    | ok r =>
      cases origin <;> (try cases hr)
      exact submitPrice_effects_agree cfg env hr
  | setPriceUnsigned origin payload =>
    cases h
    cases hr : setPriceUnsigned cfg env origin payload s with
    | error _ => exact fun _ hx => by cases hx
    | ok r =>
      cases origin <;> (try cases hr)
      exact submitPrice_effects_agree cfg env hr
  | onInitialize =>
    simp only [dispatch, Option.map_eq_some'] at h
    obtain ⟨r, hr, rfl⟩ := h
    exact onInitialize_effects_agree cfg env hr
  | filterPricesFrom who => cases h; exact fun _ hx => by cases hx

/-- The mock's `on_initialize` in block 1 on its genesis storage announces `EQD` at 1, in
    agreement with what it stores. -/
theorem dispatch_effects_agree_mock :
    (dispatch Mock.config (Mock.env 1 5) Mock.genesis .onInitialize).map (·.effects) =
        some [.onPriceSet Mock.EQD one, .newPrice Mock.EQD one one Mock.priceSetter] ∧
      ∃ o, dispatch Mock.config (Mock.env 1 5) Mock.genesis .onInitialize = some o ∧
        ∀ x ∈ o.effects, x.Agrees (Mock.env 1 5) o.storage := by
  have hne : onInitialize Mock.config (Mock.env 1 5) Mock.genesis ≠ none :=
    onInitialize_ne_none Mock.factorsInUnitRange Mock.genesis
  obtain ⟨r, hr⟩ := Option.ne_none_iff_exists'.mp hne
  have hd : dispatch Mock.config (Mock.env 1 5) Mock.genesis .onInitialize = some ⟨r.1, r.2, .ok ()⟩ := by
    simp only [dispatch, hr, Option.map_some']
  exact ⟨by decide, _, hd, dispatch_effects_agree Mock.config (Mock.env 1 5) hd⟩

end Calls

end EqOracle.Pallet
