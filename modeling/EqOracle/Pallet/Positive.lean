/-
  EqOracle.Pallet.Positive
  ────────────────────────
  **FEEDERS' PRICES ARE POSITIVE IN EVERY REACHABLE STATE; WHAT `get_price` THEN RETURNS.**

  A point enters `PricePoints` in one of three ways: it was there before the call, it is the
  price setter's (`set_the_only_price`), or it is the new point of a submission that passed
  `validate_params` in the call's block.  `dispatch_storageFrom` says this once for every call;
  every point invariant is then read off it.  Here: a feeder's point (an account other than
  the price setter) has a positive price, since `validate_params` rejects negative and zero
  prices.

  Main results:
    * `reachable_feederPrice_pos` — in every reachable state, every feeder's point has a
      positive price;
    * `getPrice_of_feeders` — an entry whose points are all feeders', with no overflow in the
      mean of its two middle prices, holds an aggregate within the range of its points, and
      `get_price` reads it or reports `PriceTimeout`: never `PriceIsZero`, never
      `PriceIsNegative`;
    * `onInitialize_specialPrice` — `on_initialize` publishes every constant price, readable
      by `get_price` at any later time before `now + MedianPriceTimeout`;
    * `dispatch_onInitialize_ne_none` — with every correlation factor in `[-1, 1]`,
      `on_initialize` never panics: `correlation * price` of a positive price stays in `i64`.
-/
import EqOracle.Pallet.Invariant

namespace EqOracle.Pallet

open FixedI64

variable {AccountId AssetId AssetData Public : Type} [DecidableEq AccountId] [DecidableEq AssetId]

/-! ## §1. Where the points after a call come from. -/

section Origin

variable (cfg : Config AccountId AssetId AssetData Public) (env : Env AccountId AssetId)

/-- Where a point of `asset` after a call in `env` comes from: the storage `s` before it, the
    price setter, or a submission of the call's block that passed `validate_params`. -/
def PointFrom (s : Storage AccountId AssetId) (asset : AssetId) (pp : PricePoint AccountId) :
    Prop :=
  (∃ pd, s.pricePoints asset = some pd ∧ pp ∈ pd.pricePoints) ∨ pp.accountId = cfg.priceSetter ∨
    pp = newPoint env pp.accountId pp.price ∧
      ∃ vb, validateParams cfg env pp.accountId asset pp.price vb = .ok ()

/-- Every point of `s'` comes from `s` by `PointFrom`. -/
def StorageFrom (s s' : Storage AccountId AssetId) : Prop :=
  ∀ asset pd pp, s'.pricePoints asset = some pd → pp ∈ pd.pricePoints → PointFrom cfg env s asset pp

omit [DecidableEq AccountId] in
theorem StorageFrom.refl (s : Storage AccountId AssetId) : StorageFrom cfg env s s :=
  fun _ pd _ h hpp => .inl ⟨pd, h, hpp⟩

omit [DecidableEq AccountId] in
theorem StorageFrom.trans {s₁ s₂ s₃ : Storage AccountId AssetId} (h₁ : StorageFrom cfg env s₁ s₂)
    (h₂ : StorageFrom cfg env s₂ s₃) : StorageFrom cfg env s₁ s₃ := by
  intro asset pd pp h hpp
  rcases h₂ asset pd pp h hpp with ⟨pd₂, h', hpp'⟩ | hset | hnew
  · exact h₁ asset pd₂ pp h' hpp'
  · exact .inr (.inl hset)
  · exact .inr (.inr hnew)

omit [DecidableEq AccountId] in
/-- Writing one entry: its points must come from `s`, the others stay. -/
theorem StorageFrom.insert {s : Storage AccountId AssetId} {asset : AssetId}
    {v : PriceData AccountId} (hv : ∀ pp ∈ v.pricePoints, PointFrom cfg env s asset pp) :
    StorageFrom cfg env s (s.insert asset v) := by
  intro a pd pp h hpp
  by_cases ha : a = asset
  · subst ha
    simp only [Storage.insert_self, Option.some.injEq] at h
    exact hv pp (h ▸ hpp)
  · rw [Storage.insert_ne _ _ ha] at h
    exact .inl ⟨pd, h, hpp⟩

omit [DecidableEq AccountId] in
theorem PointFrom.of_entry {s : Storage AccountId AssetId} {asset : AssetId}
    {pp : PricePoint AccountId} (h : pp ∈ (s.entry asset).pricePoints) :
    PointFrom cfg env s asset pp := by
  unfold Storage.entry at h
  cases hs : s.pricePoints asset with
  | none => rw [hs] at h; cases h
  | some pd => rw [hs] at h; exact .inl ⟨pd, hs, h⟩

/-- A submission's `set_price_inner` adds only its own point. -/
theorem setPriceInner_storageFrom {who : AccountId} {asset : AssetId} {price : FixedI64}
    {vb : Nat} (hvp : validateParams cfg env who asset price vb = .ok ())
    {s : Storage AccountId AssetId}
    {r : Storage AccountId AssetId × List (Effect AccountId AssetId)}
    (h : setPriceInner cfg env who asset price s = .ok r) : StorageFrom cfg env s r.1 := by
  rw [setPriceInner_eq] at h
  split at h
  · cases h
  · cases h
    refine StorageFrom.insert cfg env fun pp hpp => ?_
    rcases (mem_updatedPriceData cfg env who price).mp hpp with hk | rfl
    · exact PointFrom.of_entry cfg env ((mem_retained cfg env who).mp hk).1
    · exact .inr (.inr ⟨rfl, vb, hvp⟩)

omit [DecidableEq AccountId] in
theorem setTheOnlyPrice_storageFrom (asset : AssetId) (price : FixedI64)
    (s : Storage AccountId AssetId) : StorageFrom cfg env s (setTheOnlyPrice cfg env asset price s).1 :=
  StorageFrom.insert cfg env fun pp hpp => .inr (.inl (by
    simp only [List.mem_singleton] at hpp
    rw [hpp]))

omit [DecidableEq AccountId] in
/-- What one asset's step of `on_initialize` does: it keeps the accumulator, writes the asset's
    single price with `set_the_only_price`, or panics, which takes a correlation factor and a
    price `get_price` read whose product `checked_mul` rejects. -/
theorem onInitializeAsset_cases (acc : Storage AccountId AssetId × List (Effect AccountId AssetId))
    (e : AssetId × AssetData) :
    onInitializeAsset cfg env acc e = some acc ∨
      (∃ p, onInitializeAsset cfg env acc e = some ((setTheOnlyPrice cfg env e.1 p acc.1).1,
        acc.2 ++ (setTheOnlyPrice cfg env e.1 p acc.1).2)) ∨
      onInitializeAsset cfg env acc e = none ∧ ∃ corrAsset c p,
        cfg.directPriceCorrelation e.1 e.2 = some (corrAsset, c) ∧
          getPrice cfg env acc.1 corrAsset = .ok p ∧ checkedMul c p = none := by
  unfold onInitializeAsset
  split
  · exact .inr (.inl ⟨_, rfl⟩)
  · split
    · exact .inl rfl
    · rename_i hc
      split
      · exact .inl rfl
      · rename_i hp
        split
        · exact .inr (.inr ⟨rfl, _, _, _, hc, hp, ‹_›⟩)
        · exact .inr (.inl ⟨_, rfl⟩)

omit [DecidableEq AccountId] in
/-- A property of the storage that every asset's step keeps holds after a run of
    `on_initialize`'s fold over those assets. -/
theorem foldlM_onInitializeAsset_induction (P : Storage AccountId AssetId → Prop) :
    ∀ (l : List (AssetId × AssetData)) (acc r : Storage AccountId AssetId × List (Effect AccountId AssetId)),
      (∀ e ∈ l, ∀ a b, onInitializeAsset cfg env a e = some b → P a.1 → P b.1) →
        l.foldlM (onInitializeAsset cfg env) acc = some r → P acc.1 → P r.1
  | [], _, _, _, h, hp => by cases h; exact hp
  | e :: l, acc, r, hl, h, hp => by
    simp only [List.foldlM_cons, Option.bind_eq_bind, Option.bind_eq_some] at h
    obtain ⟨acc', h1, h2⟩ := h
    exact foldlM_onInitializeAsset_induction P l acc' r (fun e' he' => hl e' (List.mem_cons_of_mem _ he'))
      h2 (hl e (List.mem_cons_self _ _) acc acc' h1 hp)

omit [DecidableEq AccountId] in
theorem onInitializeAsset_storageFrom {acc r : Storage AccountId AssetId × List (Effect AccountId AssetId)}
    (e : AssetId × AssetData) (h : onInitializeAsset cfg env acc e = some r) :
    StorageFrom cfg env acc.1 r.1 := by
  rcases onInitializeAsset_cases cfg env acc e with he | ⟨p, he⟩ | ⟨he, -⟩ <;> rw [he] at h <;> cases h
  · exact StorageFrom.refl cfg env _
  · exact setTheOnlyPrice_storageFrom cfg env _ _ _

omit [DecidableEq AccountId] in
theorem onInitialize_storageFrom {s : Storage AccountId AssetId}
    {r : Storage AccountId AssetId × List (Effect AccountId AssetId)}
    (h : onInitialize cfg env s = some r) : StorageFrom cfg env s r.1 :=
  foldlM_onInitializeAsset_induction cfg env (StorageFrom cfg env s) _ _ _
    (fun e _ _ _ hb ha => ha.trans cfg env (onInitializeAsset_storageFrom cfg env e hb)) h
    (StorageFrom.refl cfg env s)

theorem filterPricesFrom_storageFrom (who : AccountId) (s : Storage AccountId AssetId) :
    StorageFrom cfg env s (filterPricesFrom cfg who s) := by
  intro asset pd pp h hpp
  rw [filterPricesFrom_pricePoints] at h
  split at h
  · cases hs : s.pricePoints asset with
    | none => rw [hs] at h; cases h
    | some pd₀ =>
      rw [hs, filterEntry_some] at h
      split at h
      · cases h
      · cases h
        exact .inl ⟨pd₀, hs, (List.mem_filter.mp hpp).1⟩
  · exact .inl ⟨pd, h, hpp⟩

theorem submitPrice_storageFrom {who : AccountId} {asset : AssetId} {price : FixedI64} {vb : Nat}
    {s : Storage AccountId AssetId}
    {r : Storage AccountId AssetId × List (Effect AccountId AssetId)}
    (h : submitPrice cfg env who asset price vb s = .ok r) : StorageFrom cfg env s r.1 := by
  unfold submitPrice at h
  split at h
  · cases h
  · exact setPriceInner_storageFrom cfg env ‹_› h

/-- **Where the points after a call come from**, for every call: the storage before it, the
    price setter, or a submission that passed `validate_params`. -/
theorem dispatch_storageFrom {s : Storage AccountId AssetId} {call : Call AccountId AssetId Public}
    {o : Outcome AccountId AssetId} (h : dispatch cfg env s call = some o) :
    StorageFrom cfg env s o.storage := by
  cases call with
  | setPrice origin asset price =>
    cases h
    cases hr : setPrice cfg env origin asset price s with
    | error _ => exact StorageFrom.refl cfg env s
    | ok r =>
      cases origin <;> (try cases hr)
      exact submitPrice_storageFrom cfg env hr
  | setPriceUnsigned origin payload =>
    cases h
    cases hr : setPriceUnsigned cfg env origin payload s with
    | error _ => exact StorageFrom.refl cfg env s
    | ok r =>
      cases origin <;> (try cases hr)
      exact submitPrice_storageFrom cfg env hr
  | onInitialize =>
    simp only [dispatch, Option.map_eq_some'] at h
    obtain ⟨r, hr, rfl⟩ := h
    exact onInitialize_storageFrom cfg env hr
  | filterPricesFrom who =>
    cases h
    exact filterPricesFrom_storageFrom cfg env who s

end Origin

/-! ## §2. Feeders' prices are positive. -/

section Positive

variable {cfg : Config AccountId AssetId AssetData Public}

omit [DecidableEq AccountId] in
/-- `validate_params` passes only positive prices. -/
theorem validateParams_pos {env : Env AccountId AssetId} {who : AccountId} {asset : AssetId}
    {price : FixedI64} {vb : Nat} (h : validateParams cfg env who asset price vb = .ok ()) :
    0 < price.inner := by
  unfold validateParams at h
  split at h
  · cases h
  · split_ifs at h with _ hneg hzero _
    -- a negative or zero price, or an unregistered asset: every branch of the asset match fails
    any_goals (split at h <;> (try split at h) <;> cases h)
    simp only [isNegative, isZero, decide_eq_true_eq] at hneg hzero
    omega

/-- Every feeder's point (an account other than the price setter) has a positive price. -/
def FeederPricesPositive (cfg : Config AccountId AssetId AssetData Public)
    (s : Storage AccountId AssetId) : Prop :=
  ∀ asset pd, s.pricePoints asset = some pd →
    ∀ pp ∈ pd.pricePoints, pp.accountId ≠ cfg.priceSetter → 0 < pp.price.inner

omit [DecidableEq AccountId] in
theorem FeederPricesPositive.of_storageFrom {env : Env AccountId AssetId}
    {s s' : Storage AccountId AssetId} (hs : FeederPricesPositive cfg s)
    (h : StorageFrom cfg env s s') : FeederPricesPositive cfg s' := by
  intro asset pd hpd pp hpp hne
  rcases h asset pd pp hpd hpp with ⟨pd₀, h₀, hpp₀⟩ | hset | ⟨-, _, hvp⟩
  · exact hs asset pd₀ h₀ pp hpp₀ hne
  · exact absurd hset hne
  · exact validateParams_pos hvp

omit [DecidableEq AccountId] in
/-- The genesis build stores entries without points. -/
theorem genesisBuild_feederPricesPositive (prices : List (AssetId × FixedI64)) (updateDate : Nat) :
    FeederPricesPositive cfg (genesisBuild cfg prices updateDate) := by
  have hins : ∀ (s : Storage AccountId AssetId) a (v : PriceData AccountId),
      FeederPricesPositive cfg s → v.pricePoints = [] → FeederPricesPositive cfg (s.insert a v) := by
    intro s a v hs hv asset pd hpd pp hpp
    by_cases ha : asset = a
    · subst ha
      simp only [Storage.insert_self, Option.some.injEq] at hpd
      subst hpd; rw [hv] at hpp; cases hpp
    · rw [Storage.insert_ne _ _ ha] at hpd; exact hs asset pd hpd pp hpp
  have h₀ : FeederPricesPositive cfg (⟨fun _ => none⟩ : Storage AccountId AssetId) :=
    fun _ _ h => by cases h
  exact List.foldlRecOn _ _ _ (List.foldlRecOn _ _ _ h₀ fun s hs _ _ => hins s _ _ hs rfl)
    fun s hs _ _ => hins s _ _ hs rfl

/-- **In every reachable state, every feeder's point has a positive price.** -/
theorem Reachable.feederPricesPositive {s : Storage AccountId AssetId} (h : Reachable cfg s) :
    FeederPricesPositive cfg s := by
  induction h with
  | genesis prices updateDate => exact genesisBuild_feederPricesPositive prices updateDate
  | step env call _ hd ih => exact ih.of_storageFrom (dispatch_storageFrom cfg env hd)

/-- **A feeder's price is positive in every reachable state**: every point of an account
    other than the price setter, in any entry of a storage reachable from a genesis build. -/
theorem reachable_feederPrice_pos {s : Storage AccountId AssetId} (hr : Reachable cfg s)
    {asset : AssetId} {pd : PriceData AccountId} (hpd : s.pricePoints asset = some pd)
    {pp : PricePoint AccountId} (hpp : pp ∈ pd.pricePoints) (hne : pp.accountId ≠ cfg.priceSetter) :
    0 < pp.price.inner :=
  hr.feederPricesPositive asset pd hpd pp hpp hne

/-- The point of account 1 for `EQ` after its `set_price` in block 1 of the mock. -/
theorem reachable_feederPrice_pos_mock :
    Reachable Mock.config (Mock.submit Mock.genesis 1 0 1 Mock.EQ one) ∧
      (Mock.submit Mock.genesis 1 0 1 Mock.EQ one).pricePoints Mock.EQ =
        some ⟨1, 0, one, [⟨1, 0, one, 1⟩]⟩ ∧
      (⟨1, 0, one, 1⟩ : PricePoint Nat) ∈ [(⟨1, 0, one, 1⟩ : PricePoint Nat)] ∧
      (1 : Nat) ≠ Mock.config.priceSetter ∧ 0 < one.inner :=
  have hs : Reachable Mock.config (Mock.submit Mock.genesis 1 0 1 Mock.EQ one) :=
    .step (Mock.env 1 0) (.setPrice (.signed 1) Mock.EQ one) (.genesis [] 0) rfl
  have h : (Mock.submit Mock.genesis 1 0 1 Mock.EQ one).pricePoints Mock.EQ =
      some ⟨1, 0, one, [⟨1, 0, one, 1⟩]⟩ := by decide
  ⟨hs, h, List.mem_singleton_self _, by decide,
    reachable_feederPrice_pos hs h (List.mem_singleton_self _) (by decide)⟩

end Positive

/-! ## §3. What `get_price` reads. -/

section GetPrice

variable {cfg : Config AccountId AssetId AssetData Public} {env : Env AccountId AssetId}

omit [DecidableEq AccountId] [DecidableEq AssetId] in
/-- A stored positive aggregate is read, unless it has timed out. -/
theorem getPrice_of_pos {s : Storage AccountId AssetId} {asset : AssetId} {pd : PriceData AccountId}
    (hpd : s.pricePoints asset = some pd) (hpos : 0 < pd.price.inner) :
    getPrice cfg env s asset = .ok pd.price ∨ getPrice cfg env s asset = .error (.module .priceTimeout) := by
  have hz : pd.price.isZero = false := by simp [isZero]; omega
  have hn : pd.price.isNegative = false := by simp [isNegative]; omega
  simp only [getPrice, hpd, hz, hn]
  split <;> simp

omit [DecidableEq AccountId] [DecidableEq AssetId] in
/-- `get_price` returns only positive prices. -/
theorem getPrice_pos {s : Storage AccountId AssetId} {asset : AssetId} {p : FixedI64}
    (h : getPrice cfg env s asset = .ok p) : 0 < p.inner := by
  unfold getPrice at h
  split at h
  · cases h
  · split_ifs at h with _ hz hn
    cases h
    simp only [isZero, isNegative, decide_eq_true_eq] at hz hn
    omega

theorem getD_mem_of_lt {α : Type} {l : List α} {i : Nat} (h : i < l.length) (d : α) :
    l.getD i d ∈ l := by
  rw [List.getD_eq_getElem?_getD, List.getElem?_eq_getElem h]
  exact List.getElem_mem h

/-- **What `get_price` returns for an entry of feeders.**  In a reachable state (with
    `PriceTimeout ≥ 1`), an entry with points, none of them the price setter's, whose two middle
    prices do not overflow `i64` when added (for an even number of points), holds an
    aggregate between two of its points' prices, so positive; `get_price` returns it, or
    `PriceTimeout` once `MedianPriceTimeout` has passed: never `PriceIsZero` and never
    `PriceIsNegative`. -/
theorem getPrice_of_feeders (hpt : 1 ≤ cfg.priceTimeout) {s : Storage AccountId AssetId}
    (hr : Reachable cfg s) {asset : AssetId} {pd : PriceData AccountId}
    (hpd : s.pricePoints asset = some pd) (hne : pd.pricePoints ≠ [])
    (hset : ∀ pp ∈ pd.pricePoints, pp.accountId ≠ cfg.priceSetter)
    (hsum : pd.pricePoints.length % 2 = 0 →
      ((pd.pricePoints.map (·.price)).getD (pd.pricePoints.length / 2 - 1) zero).inner +
        ((pd.pricePoints.map (·.price)).getD (pd.pricePoints.length / 2) zero).inner < 2 ^ 63) :
    (∃ lo ∈ pd.pricePoints, ∃ hi ∈ pd.pricePoints,
        lo.price.inner ≤ pd.price.inner ∧ pd.price.inner ≤ hi.price.inner) ∧
      (getPrice cfg env s asset = .ok pd.price ∨
        getPrice cfg env s asset = .error (.module .priceTimeout)) := by
  have inv := Reachable.storageInv hpt hr asset pd hpd
  have hpos : ∀ x ∈ pd.pricePoints.map (·.price), 0 < x.inner := fun x hx => by
    obtain ⟨pp, hpp, rfl⟩ := List.mem_map.mp hx
    exact Reachable.feederPricesPositive hr asset pd hpd pp hpp (hset pp hpp)
  have hlen : (pd.pricePoints.map (·.price)).length = pd.pricePoints.length := List.length_map _ _
  have hn := List.length_pos.mpr hne
  have hmem : ∀ i, i < pd.pricePoints.length →
      ((pd.pricePoints.map (·.price)).getD i zero) ∈ pd.pricePoints.map (·.price) :=
    fun i hi => getD_mem_of_lt (by omega) zero
  obtain ⟨hlo, hhi⟩ := medianPrice_between (List.pairwise_map.mpr inv.sorted) (by simpa using hne)
    fun hev => by
      rw [hlen] at hev ⊢
      have := hpos _ (hmem (pd.pricePoints.length / 2 - 1) (by omega))
      have := hpos _ (hmem (pd.pricePoints.length / 2) (by omega))
      exact ⟨hsum hev, by omega⟩
  have hprice : pd.price = medianPrice (pd.pricePoints.map (·.price)) (by simpa using hne) :=
    inv.median hne
  rw [← hprice, hlen] at hlo hhi
  have hlo' := hmem ((pd.pricePoints.length - 1) / 2) (by omega)
  have hhi' := hmem (pd.pricePoints.length / 2) (by omega)
  obtain ⟨lo, hlo_mem, hlo_eq⟩ := List.mem_map.mp hlo'
  obtain ⟨hi, hhi_mem, hhi_eq⟩ := List.mem_map.mp hhi'
  refine ⟨⟨lo, hlo_mem, hi, hhi_mem, hlo_eq ▸ hlo, hhi_eq ▸ hhi⟩, getPrice_of_pos hpd ?_⟩
  have := hpos _ hlo'
  omega

/-- Their aggregate is 2, read at time 10 of block 2. -/
theorem getPrice_of_feeders_mock :
    1 ≤ Mock.config.priceTimeout ∧ Reachable Mock.config Mock.twoFeeders ∧
      Mock.twoFeeders.pricePoints Mock.EQ = some ⟨1, 0, saturatingFromInteger 2,
        [⟨1, 0, one, 1⟩, ⟨1, 0, saturatingFromInteger 3, 2⟩]⟩ ∧
      ([⟨1, 0, one, 1⟩, ⟨1, 0, saturatingFromInteger 3, 2⟩] : List (PricePoint Nat)) ≠ [] ∧
      (∀ pp ∈ ([⟨1, 0, one, 1⟩, ⟨1, 0, saturatingFromInteger 3, 2⟩] : List (PricePoint Nat)),
        pp.accountId ≠ Mock.config.priceSetter) ∧
      (one.inner + (saturatingFromInteger 3).inner < 2 ^ 63) ∧
      (∃ lo ∈ ([⟨1, 0, one, 1⟩, ⟨1, 0, saturatingFromInteger 3, 2⟩] : List (PricePoint Nat)),
        ∃ hi ∈ ([⟨1, 0, one, 1⟩, ⟨1, 0, saturatingFromInteger 3, 2⟩] : List (PricePoint Nat)),
          lo.price.inner ≤ (saturatingFromInteger 2).inner ∧
            (saturatingFromInteger 2).inner ≤ hi.price.inner) ∧
        (getPrice Mock.config (Mock.env 2 10) Mock.twoFeeders Mock.EQ = .ok (saturatingFromInteger 2) ∨
          getPrice Mock.config (Mock.env 2 10) Mock.twoFeeders Mock.EQ =
            .error (.module .priceTimeout)) :=
  have hsum : one.inner + (saturatingFromInteger 3).inner < 2 ^ 63 := by decide
  ⟨by decide, Mock.reachable_twoFeeders, Mock.twoFeeders_EQ, by decide, by decide, hsum,
    getPrice_of_feeders (by decide) Mock.reachable_twoFeeders Mock.twoFeeders_EQ (by decide) (by decide)
      fun _ => hsum⟩

end GetPrice

/-! ## §4. `on_initialize` without panics. -/

section OnInitialize

variable {cfg : Config AccountId AssetId AssetData Public} {env : Env AccountId AssetId}

/-- Every correlation factor of `DirectPriceCorrelation` lies in `[-1, 1]`. -/
def FactorsInUnitRange (cfg : Config AccountId AssetId AssetData Public) : Prop :=
  ∀ asset d corrAsset c, cfg.directPriceCorrelation asset d = some (corrAsset, c) →
    -accuracy ≤ c.inner ∧ c.inner ≤ accuracy

/-- The mock correlates `XDOT` and `HDOT` to `DOT` with the factor 1. -/
theorem Mock.factorsInUnitRange : FactorsInUnitRange Mock.config := by
  intro asset d corrAsset c h
  simp only [Mock.config, Mock.directPriceCorrelation] at h
  split at h
  · cases h; decide
  · cases h

omit [DecidableEq AccountId] in
theorem onInitializeAsset_ne_none (hcorr : FactorsInUnitRange cfg)
    (acc : Storage AccountId AssetId × List (Effect AccountId AssetId)) (e : AssetId × AssetData) :
    onInitializeAsset cfg env acc e ≠ none := by
  rcases onInitializeAsset_cases cfg env acc e with he | ⟨p, he⟩ | ⟨-, _, _, _, hc, hp, hm⟩
  · simp [he]
  · simp [he]
  · exact absurd hm (checkedMul_ne_none (hcorr _ _ _ _ hc) (getPrice_pos hp).le)

omit [DecidableEq AccountId] in
theorem onInitialize_ne_none (hcorr : FactorsInUnitRange cfg) (s : Storage AccountId AssetId) :
    onInitialize cfg env s ≠ none := by
  unfold onInitialize
  suffices ∀ (l : List (AssetId × AssetData)) acc, l.foldlM (onInitializeAsset cfg env) acc ≠ none from
    this _ _
  intro l
  induction l with
  | nil => intro acc; simp
  | cons e l ih =>
    intro acc
    obtain ⟨r, hr⟩ := Option.ne_none_iff_exists'.mp (onInitializeAsset_ne_none hcorr acc e)
    simp only [List.foldlM_cons, Option.bind_eq_bind]
    rw [hr]
    exact ih r

omit [DecidableEq AccountId] in
/-- One asset's step of `on_initialize` writes only that asset's entry. -/
theorem onInitializeAsset_pricePoints_ne {acc r : Storage AccountId AssetId × List (Effect AccountId AssetId)}
    {e : AssetId × AssetData} {asset : AssetId} (hne : e.1 ≠ asset)
    (h : onInitializeAsset cfg env acc e = some r) : r.1.pricePoints asset = acc.1.pricePoints asset := by
  rcases onInitializeAsset_cases cfg env acc e with he | ⟨p, he⟩ | ⟨he, -⟩ <;> rw [he] at h <;> cases h
  · rfl
  · exact Storage.insert_ne _ _ (Ne.symm hne)

omit [DecidableEq AccountId] in
theorem foldlM_onInitializeAsset_pricePoints {asset : AssetId} (l : List (AssetId × AssetData))
    (acc r : Storage AccountId AssetId × List (Effect AccountId AssetId)) (hl : ∀ e ∈ l, e.1 ≠ asset)
    (h : l.foldlM (onInitializeAsset cfg env) acc = some r) :
    r.1.pricePoints asset = acc.1.pricePoints asset :=
  foldlM_onInitializeAsset_induction cfg env (fun t => t.pricePoints asset = acc.1.pricePoints asset)
    l acc r (fun e he _ _ hb ha => (onInitializeAsset_pricePoints_ne (hl e he) hb).trans ha) h rfl

omit [DecidableEq AccountId] in
/-- **`on_initialize` publishes every constant price in its block.**  After it, a registered
    asset with a `SpecialPrices` price `p` holds one point of the price setter at `p`, of the
    block and time `on_initialize` reads.  FRAME runs `on_initialize` before the timestamp
    inherent, so a later `get_price` may read a later clock `env'.now`: while that is before
    `now + MedianPriceTimeout` (a sum that does not overflow `u64`), it returns a positive `p`. -/
theorem onInitialize_specialPrice {s : Storage AccountId AssetId}
    {r : Storage AccountId AssetId × List (Effect AccountId AssetId)}
    (h : onInitialize cfg env s = some r) {asset : AssetId} {d : AssetData} {p : FixedI64}
    (hd : (asset, d) ∈ cfg.assetGetter.assetsData) (hsp : cfg.specialPrices asset d = some p) :
    r.1.pricePoints asset =
        some ⟨env.blockNumber, env.now, p, [⟨env.blockNumber, env.now, p, cfg.priceSetter⟩]⟩ ∧
      ∀ env' : Env AccountId AssetId, env.now + cfg.medianPriceTimeout < 2 ^ 64 →
        env'.now < env.now + cfg.medianPriceTimeout → 0 < p.inner →
          getPrice cfg env' r.1 asset = .ok p := by
  obtain ⟨pre, post, hl⟩ := List.append_of_mem hd
  have hpost : ∀ e ∈ post, e.1 ≠ asset := by
    have hnd := cfg.assetGetter.nodup
    rw [hl, List.map_append, List.map_cons] at hnd
    intro e he heq
    have hm := List.mem_map_of_mem Prod.fst he
    rw [heq] at hm
    exact (List.nodup_cons.mp (List.nodup_append.mp hnd).2.1).1 hm
  unfold onInitialize at h
  rw [hl, List.foldlM_append] at h
  simp only [List.foldlM_cons, Option.bind_eq_bind, Option.bind_eq_some] at h
  obtain ⟨acc₁, -, acc₂, h₂, h₃⟩ := h
  simp only [onInitializeAsset, hsp, Option.some.injEq] at h₂
  have hr : r.1.pricePoints asset =
      some ⟨env.blockNumber, env.now, p, [⟨env.blockNumber, env.now, p, cfg.priceSetter⟩]⟩ := by
    rw [foldlM_onInitializeAsset_pricePoints post acc₂ r hpost h₃, ← h₂]
    exact Storage.insert_self _ _ _
  refine ⟨hr, fun env' hfit hlt hpos => ?_⟩
  have hz : p.isZero = false := by simp [isZero]; omega
  have hn : p.isNegative = false := by simp [isNegative]; omega
  simp only [getPrice, hr, hz, hn, Bool.false_eq_true, if_false, Nat.mod_eq_of_lt hfit]
  rw [if_neg (by omega)]

/-- The mock's `on_initialize` in block 1, reading time 5, publishes `Price[EQD] = 1`;
    `get_price` reads it at time 6, after the block's timestamp inherent. -/
theorem onInitialize_specialPrice_mock :
    ∃ r, onInitialize Mock.config (Mock.env 1 5) Mock.genesis = some r ∧
      (Mock.EQD, ()) ∈ Mock.config.assetGetter.assetsData ∧
      Mock.config.specialPrices Mock.EQD () = some one ∧
      r.1.pricePoints Mock.EQD = some ⟨1, 5, one, [⟨1, 5, one, Mock.config.priceSetter⟩]⟩ ∧
      (5 + Mock.config.medianPriceTimeout < 2 ^ 64 ∧ 6 < 5 + Mock.config.medianPriceTimeout ∧
        0 < one.inner) ∧
      getPrice Mock.config (Mock.env 1 6) r.1 Mock.EQD = .ok one := by
  have hne : onInitialize Mock.config (Mock.env 1 5) Mock.genesis ≠ none :=
    onInitialize_ne_none Mock.factorsInUnitRange Mock.genesis
  obtain ⟨r, hr⟩ := Option.ne_none_iff_exists'.mp hne
  have hd : (Mock.EQD, ()) ∈ Mock.config.assetGetter.assetsData := by decide
  have hx := onInitialize_specialPrice hr hd rfl
  exact ⟨r, hr, hd, rfl, hx.1, by decide, hx.2 (Mock.env 1 6) (by decide) (by decide) (by decide)⟩

/-- **`on_initialize` never panics when every correlation factor lies in `[-1, 1]`**: in every
    state and every block, the correlated prices `correlation * price` it computes from the
    positive prices `get_price` returns stay in `i64`. -/
theorem dispatch_onInitialize_ne_none (hcorr : FactorsInUnitRange cfg) (env : Env AccountId AssetId)
    (s : Storage AccountId AssetId) :
    dispatch cfg env s (.onInitialize : Call AccountId AssetId Public) ≠ none := by
  simp only [dispatch, ne_eq, Option.map_eq_none']
  exact onInitialize_ne_none hcorr s

/-- The mock's `on_initialize` on its genesis storage. -/
theorem dispatch_onInitialize_ne_none_mock :
    FactorsInUnitRange Mock.config ∧ dispatch Mock.config (Mock.env 1 0) Mock.genesis .onInitialize ≠ none :=
  ⟨Mock.factorsInUnitRange, dispatch_onInitialize_ne_none Mock.factorsInUnitRange _ _⟩

end OnInitialize

end EqOracle.Pallet
