/-
  EqOracle.Pallet.Filter
  ──────────────────────
  **WHAT `filter_prices_from(who)` DOES TO EACH ENTRY.**

  `filter_prices_from` walks `get_assets()` and applies `mutate_exists` with a closure that
  drops the points of `who`, deletes the entry when nothing is left and recomputes the median
  when something went.  Asset by asset (`filterPricesFrom_pricePoints`):

    * an asset outside `get_assets()`, or with no entry, is untouched;
    * an entry holding points of `who` loses exactly those, keeps the others in order, keeps
      its block number and timestamp, and is deleted iff nothing remains
      (`filterPricesFrom_of_pointsOf`);
    * a non-empty entry without points of `who` is untouched (`filterPricesFrom_frame`);
    * afterwards no registered entry holds a point of `who` (`filterPricesFrom_clears`).

  The closure's emptiness test does not look at whether a point was removed, so an entry with
  an empty point list (what the genesis build seeds for every asset) is deleted whoever is
  filtered: `filterPricesFrom_deletes_genesis_entry`.
-/
import EqOracle.Pallet.Spec

namespace EqOracle.Pallet

variable {AccountId AssetId AssetData Public : Type} [DecidableEq AccountId] [DecidableEq AssetId]

/-! ## §1. One entry. -/

/-- The filter keeps a list exactly when no element is `who`'s. -/
theorem withoutPointsOf_eq_self {who : AccountId} {points : List (PricePoint AccountId)} :
    withoutPointsOf who points = points ↔ ∀ pp ∈ points, pp.accountId ≠ who := by
  simp [withoutPointsOf, List.filter_eq_self]

/-- An entry holding a point of `who` gets the median of what remains. -/
theorem filterEntry_of_pointsOf {who : AccountId} {pd : PriceData AccountId}
    (hwho : ∃ pp ∈ pd.pricePoints, pp.accountId = who) :
    filterEntry who (some pd) =
      if h : withoutPointsOf who pd.pricePoints = [] then none
      else some { pd with
        price := calcMedianPrice _ h
        pricePoints := withoutPointsOf who pd.pricePoints } := by
  have hlt : (withoutPointsOf who pd.pricePoints).length < pd.pricePoints.length :=
    List.length_filter_lt_length_iff_exists.mpr (by simpa using hwho)
  rw [filterEntry_some]
  split
  · rfl
  · rw [if_neg (Nat.ne_of_lt hlt)]

/-- A non-empty entry without points of `who` is kept as it is. -/
theorem filterEntry_of_forall_ne {who : AccountId} {pd : PriceData AccountId}
    (hne : pd.pricePoints ≠ []) (hwho : ∀ pp ∈ pd.pricePoints, pp.accountId ≠ who) :
    filterEntry who (some pd) = some pd := by
  have hself := withoutPointsOf_eq_self.mpr hwho
  rw [filterEntry_some, dif_neg (by rwa [hself])]
  simp only [hself, if_true]

/-- An entry with no point at all is deleted. -/
theorem filterEntry_of_nil (who : AccountId) {pd : PriceData AccountId}
    (h : pd.pricePoints = []) : filterEntry who (some pd) = none := by
  rw [filterEntry_some, dif_pos (by rw [h]; rfl)]

/-- What the filter keeps holds no point of `who`. -/
theorem filterEntry_clears (who : AccountId) {x : Option (PriceData AccountId)}
    {pd : PriceData AccountId} (h : filterEntry who x = some pd) :
    ∀ pp ∈ pd.pricePoints, pp.accountId ≠ who := by
  rcases x with _ | pd₀
  · cases h
  · rw [filterEntry_some] at h
    split at h
    · cases h
    · cases h
      intro pp hpp
      simpa using (List.mem_filter.mp hpp).2

/-! ## §2. The whole map. -/

section Storage

variable (cfg : Config AccountId AssetId AssetData Public) (who : AccountId)
  (s : Storage AccountId AssetId)

/-- **Entries holding points of `who`**: exactly those points go, the rest keep their order
    and the entry its block number and timestamp; the entry is deleted iff nothing is left,
    else its price is the median of what is left. -/
theorem filterPricesFrom_of_pointsOf {asset : AssetId} (hasset : asset ∈ cfg.assetGetter.getAssets)
    {pd : PriceData AccountId} (hpd : s.pricePoints asset = some pd)
    (hwho : ∃ pp ∈ pd.pricePoints, pp.accountId = who) :
    (filterPricesFrom cfg who s).pricePoints asset =
      if h : withoutPointsOf who pd.pricePoints = [] then none
      else some ⟨pd.blockNumber, pd.timestamp, calcMedianPrice _ h,
        withoutPointsOf who pd.pricePoints⟩ := by
  rw [filterPricesFrom_pricePoints, if_pos hasset, hpd, filterEntry_of_pointsOf hwho]

/-- **The frame**: an unregistered asset, an absent entry, and a non-empty entry without
    points of `who` are left as they were. -/
theorem filterPricesFrom_frame {asset : AssetId}
    (h : asset ∉ cfg.assetGetter.getAssets ∨ s.pricePoints asset = none ∨
      ∃ pd, s.pricePoints asset = some pd ∧ pd.pricePoints ≠ [] ∧
        ∀ pp ∈ pd.pricePoints, pp.accountId ≠ who) :
    (filterPricesFrom cfg who s).pricePoints asset = s.pricePoints asset := by
  rw [filterPricesFrom_pricePoints]
  split
  · rcases h with h | h | ⟨pd, hpd, hne, hwho⟩
    · contradiction
    · rw [h]; rfl
    · rw [hpd, filterEntry_of_forall_ne hne hwho]
  · rfl

/-- Afterwards no entry of a registered asset holds a point of `who`. -/
theorem filterPricesFrom_clears {asset : AssetId} (hasset : asset ∈ cfg.assetGetter.getAssets)
    {pd : PriceData AccountId} (hpd : (filterPricesFrom cfg who s).pricePoints asset = some pd) :
    ∀ pp ∈ pd.pricePoints, pp.accountId ≠ who := by
  rw [filterPricesFrom_pricePoints, if_pos hasset] at hpd
  exact filterEntry_clears who hpd

/-- A registered entry with no point is deleted, whoever is filtered. -/
theorem filterPricesFrom_of_nil {asset : AssetId} (hasset : asset ∈ cfg.assetGetter.getAssets)
    {pd : PriceData AccountId} (hpd : s.pricePoints asset = some pd) (hnil : pd.pricePoints = []) :
    (filterPricesFrom cfg who s).pricePoints asset = none := by
  rw [filterPricesFrom_pricePoints, if_pos hasset, hpd, filterEntry_of_nil who hnil]

end Storage

/-! ## §3. The genesis entries. -/

/-- **`filter_prices_from` deletes the entries the genesis build seeds.**  In the mock
    runtime the genesis build stores the default, point-less entry for `EQ`; it holds no point
    of any account, yet `filter_prices_from(who)` deletes it, for every `who`. -/
theorem filterPricesFrom_deletes_genesis_entry (who : Nat) :
    Reachable Mock.config Mock.genesis ∧
      Mock.genesis.pricePoints Mock.EQ = some PriceData.default ∧
      (filterPricesFrom Mock.config who Mock.genesis).pricePoints Mock.EQ = none :=
  have h : Mock.genesis.pricePoints Mock.EQ = some PriceData.default := by decide
  ⟨.genesis [] 0, h, filterPricesFrom_of_nil _ _ _ (by decide) h rfl⟩

end EqOracle.Pallet
