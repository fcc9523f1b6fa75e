/-
  EqOracle.Pallet.Spec
  ────────────────────
  **ONE SPECIFICATION LEMMA PER FUNCTION OF THE PALLET.**

  Later proofs cite these and never unfold the functions:

    * `updatedPriceData_perm`, `updatedPriceData_sorted`, `updatedPriceData_price` — what
      `set_price_inner` writes: the kept points plus the new one, sorted, with their median;
    * `retained_of_fits` — without a `u64` overflow of `timestamp + PriceTimeout`, the kept
      points are those live by the exact sum;
    * `setPriceInner_eq` — `set_price_inner` rejects exactly the duplicates;
    * `validateParams_ok` — a submission that passes `validate_params` is for a registered
      asset with no constant or correlated price;
    * `filterPricesFrom_pricePoints` — `filter_prices_from` applies `filterEntry` to the
      registered assets and leaves every other entry alone;
    * `onInitialize_frame` — `on_initialize` touches only assets with an overlay price.
-/
import EqOracle.Pallet.Model

namespace EqOracle.Pallet

open FixedI64

variable {AccountId AssetId AssetData Public : Type} [DecidableEq AccountId] [DecidableEq AssetId]

/-- The entry `try_mutate` reads: the stored one, or the default. -/
def Storage.entry (s : Storage AccountId AssetId) (asset : AssetId) : PriceData AccountId :=
  (s.pricePoints asset).getD PriceData.default

omit [DecidableEq AccountId] in
@[simp] theorem Storage.entry_insert_self (s : Storage AccountId AssetId) (asset : AssetId)
    (v : PriceData AccountId) : (s.insert asset v).entry asset = v := by
  simp [Storage.entry]

omit [DecidableEq AccountId] in
@[simp] theorem Storage.entry_insert_ne (s : Storage AccountId AssetId) {a b : AssetId}
    (v : PriceData AccountId) (h : b ≠ a) : (s.insert a v).entry b = s.entry b := by
  simp [Storage.entry, h]

omit [DecidableEq AccountId] [DecidableEq AssetId] in
/-- What holds of every stored entry and of the default one holds of the entry `try_mutate`
    reads. -/
theorem Storage.entry_of {P : PriceData AccountId → Prop} {s : Storage AccountId AssetId}
    {asset : AssetId} (hdef : P PriceData.default) (h : ∀ pd, s.pricePoints asset = some pd → P pd) :
    P (s.entry asset) := by
  unfold Storage.entry
  cases he : s.pricePoints asset with
  | none => exact hdef
  | some pd => exact h pd he

/-- A point list sorted by price. -/
abbrev PricesSorted (points : List (PricePoint AccountId)) : Prop :=
  SortedBy points (·.price)

/-! ## §1. `calc_median_price`. -/

omit [DecidableEq AccountId] in
@[simp] theorem calcMedianPrice_singleton (pp : PricePoint AccountId) (h) :
    calcMedianPrice [pp] h = pp.price := by
  simp [calcMedianPrice, medianPrice]

/-- The median by rank: the middle price for an odd length, the halved sum of the two middle
    prices for an even one. -/
theorem medianPrice_eq (prices : List FixedI64) (h : prices ≠ []) :
    medianPrice prices h =
      if prices.length % 2 = 0 then
        divTwo (add (prices.getD (prices.length / 2 - 1) zero) (prices.getD (prices.length / 2) zero))
      else prices.getD (prices.length / 2) zero := by
  have := List.length_pos.mpr h
  have h1 : prices.length / 2 < prices.length := by omega
  have h2 : prices.length / 2 - 1 < prices.length := by omega
  unfold medianPrice
  split <;> simp [List.getD_eq_getElem?_getD, List.getElem?_eq_getElem h1,
    List.getElem?_eq_getElem h2]

/-- **The median by rank, as numbers**: the middle price for an odd length; for an even one,
    when the sum of the two middle prices stays in `i64`, their mean truncated toward zero to
    the unit `10⁻⁹`. -/
theorem medianPrice_rank (prices : List FixedI64) (h : prices ≠ []) :
    (prices.length % 2 = 1 → medianPrice prices h = prices.getD (prices.length / 2) zero) ∧
      (prices.length % 2 = 0 →
        -2 ^ 63 ≤ (prices.getD (prices.length / 2 - 1) zero).inner +
          (prices.getD (prices.length / 2) zero).inner →
        (prices.getD (prices.length / 2 - 1) zero).inner +
          (prices.getD (prices.length / 2) zero).inner < 2 ^ 63 →
        (medianPrice prices h).inner = ((prices.getD (prices.length / 2 - 1) zero).inner +
          (prices.getD (prices.length / 2) zero).inner).tdiv 2) := by
  rw [medianPrice_eq]
  refine ⟨fun hodd => if_neg (by omega), fun hev h1 h2 => ?_⟩
  rw [if_pos hev]
  exact congrArg (Int.tdiv · 2) (wrapI64_of_range h1 h2)

/-! ## §2. `set_price_inner`. -/

section SetPrice

variable (cfg : Config AccountId AssetId AssetData Public) (env : Env AccountId AssetId)
  (who : AccountId) (price : FixedI64)

omit [DecidableEq AssetId] in
theorem mem_retained {pp : PricePoint AccountId} {points : List (PricePoint AccountId)} :
    pp ∈ retained cfg env who points ↔
      pp ∈ points ∧ (pp.timestamp + cfg.priceTimeout) % 2 ^ 64 > env.now ∧ pp.accountId ≠ who := by
  simp [retained]

omit [DecidableEq AssetId] in
/-- A kept point is live by the exact sum too: the wrapped sum is at most the exact one. -/
theorem now_lt_of_mem_retained {pp : PricePoint AccountId} {points : List (PricePoint AccountId)}
    (h : pp ∈ retained cfg env who points) : env.now < pp.timestamp + cfg.priceTimeout :=
  Nat.lt_of_lt_of_le ((mem_retained cfg env who).mp h).2.1 (Nat.mod_le _ _)

omit [DecidableEq AssetId] in
/-- When no point's `timestamp + PriceTimeout` overflows `u64`, `retained` keeps the points
    live by the exact sum. -/
theorem retained_of_fits {points : List (PricePoint AccountId)}
    (hfit : ∀ pp ∈ points, pp.timestamp + cfg.priceTimeout < 2 ^ 64) :
    retained cfg env who points =
      points.filter (fun pp => pp.timestamp + cfg.priceTimeout > env.now ∧ pp.accountId ≠ who) :=
  List.filter_congr fun pp hpp => by rw [Nat.mod_eq_of_lt (hfit pp hpp)]

omit [DecidableEq AssetId] in
theorem retained_sublist (points : List (PricePoint AccountId)) :
    (retained cfg env who points).Sublist points :=
  List.filter_sublist _

/-- The point `set_price_inner` adds. -/
def newPoint : PricePoint AccountId := ⟨env.blockNumber, env.now, price, who⟩

omit [DecidableEq AssetId] in
@[simp] theorem updatedPriceData_blockNumber (pd : PriceData AccountId) :
    (updatedPriceData cfg env who price pd).blockNumber = env.blockNumber := rfl

omit [DecidableEq AssetId] in
@[simp] theorem updatedPriceData_timestamp (pd : PriceData AccountId) :
    (updatedPriceData cfg env who price pd).timestamp = env.now := rfl

omit [DecidableEq AssetId] in
theorem updatedPriceData_price (pd : PriceData AccountId) (h) :
    (updatedPriceData cfg env who price pd).price =
      calcMedianPrice (updatedPriceData cfg env who price pd).pricePoints h := rfl

omit [DecidableEq AssetId] in
/-- **No point is lost or duplicated**: the new list is the kept points and the new one. -/
theorem updatedPriceData_perm (pd : PriceData AccountId) :
    (updatedPriceData cfg env who price pd).pricePoints.Perm
      (retained cfg env who pd.pricePoints ++ [newPoint env who price]) :=
  (List.perm_insertIdx _ _ (length_binarySearchBy_pos _ _)).trans
    (List.perm_append_singleton _ _).symm

omit [DecidableEq AssetId] in
theorem mem_updatedPriceData {pd : PriceData AccountId} {pp : PricePoint AccountId} :
    pp ∈ (updatedPriceData cfg env who price pd).pricePoints ↔
      pp ∈ retained cfg env who pd.pricePoints ∨ pp = newPoint env who price := by
  rw [(updatedPriceData_perm cfg env who price pd).mem_iff]; simp

omit [DecidableEq AssetId] in
/-- **The new list is sorted** when the old one is. -/
theorem updatedPriceData_sorted {pd : PriceData AccountId} (hs : PricesSorted pd.pricePoints) :
    PricesSorted (updatedPriceData cfg env who price pd).pricePoints :=
  have hk : PricesSorted (retained cfg env who pd.pricePoints) :=
    List.Pairwise.sublist (retained_sublist cfg env who _) hs
  insertIdx_sorted hk (binarySearchBy_insertPos price hk)

/-- `set_price_inner` rejects exactly the duplicates and otherwise writes `updatedPriceData`. -/
theorem setPriceInner_eq (asset : AssetId) (s : Storage AccountId AssetId) :
    setPriceInner cfg env who asset price s =
      if IsDuplicate env (s.entry asset) who then .error (.module .priceAlreadyAdded)
      else .ok (s.insert asset (updatedPriceData cfg env who price (s.entry asset)),
        [.onPriceSet asset price,
          .newPrice asset price (updatedPriceData cfg env who price (s.entry asset)).price who]) :=
  rfl

end SetPrice

/-! ## §3. `validate_params` and the asset registry. -/

theorem AssetGetter.mem_getAssets_of_getAssetData {g : AssetGetter AssetId AssetData}
    {asset : AssetId} {d : AssetData} (h : g.getAssetData asset = .ok d) :
    asset ∈ g.getAssets := by
  unfold AssetGetter.getAssetData at h
  split at h
  · rename_i e he
    have := List.find?_some he
    simp only [decide_eq_true_eq] at this
    exact this ▸ List.mem_map_of_mem _ (List.mem_of_find?_eq_some he)
  · cases h

/-- Distinct assets: an entry of `get_assets_data` is what `get_asset_data` returns. -/
theorem find?_fst_of_nodup {e : AssetId × AssetData} :
    ∀ {l : List (AssetId × AssetData)}, (l.map Prod.fst).Nodup → e ∈ l →
      l.find? (fun x => x.1 = e.1) = some e
  | [], _, h => absurd h (List.not_mem_nil _)
  | x :: xs, nd, h => by
    simp only [List.map_cons, List.nodup_cons, List.mem_map] at nd
    rcases List.mem_cons.mp h with rfl | hm
    · simp
    · have hx : x.1 ≠ e.1 := fun hx => nd.1 ⟨e, hm, hx.symm⟩
      simp [List.find?_cons, hx, find?_fst_of_nodup nd.2 hm]

theorem AssetGetter.getAssetData_of_mem {g : AssetGetter AssetId AssetData}
    {e : AssetId × AssetData} (h : e ∈ g.assetsData) : g.getAssetData e.1 = .ok e.2 := by
  simp [AssetGetter.getAssetData, find?_fst_of_nodup g.nodup h]

omit [DecidableEq AccountId] in
/-- A submission that passes `validate_params` names a registered asset without an overlay. -/
theorem validateParams_ok {cfg : Config AccountId AssetId AssetData Public}
    {env : Env AccountId AssetId} {who : AccountId} {asset : AssetId} {price : FixedI64}
    {b : Nat} (h : validateParams cfg env who asset price b = .ok ()) :
    ∃ d, cfg.assetGetter.getAssetData asset = .ok d ∧ cfg.specialPrices asset d = none ∧
      cfg.directPriceCorrelation asset d = none := by
  unfold validateParams at h
  split at h
  · cases h
  · split at h
    · cases h
    · split at h
      · cases h
      · rename_i d hd
        refine ⟨d, hd, ?_⟩
        split at h
        · cases h
        · rename_i hov
          simpa [Option.isSome_iff_ne_none] using hov

/-! ## §4. `filter_prices_from`. -/

/-- The points of `who` filtered out. -/
abbrev withoutPointsOf (who : AccountId) (points : List (PricePoint AccountId)) :
    List (PricePoint AccountId) :=
  points.filter (fun pp => pp.accountId ≠ who)

/-- `filterEntry` on a stored entry: deleted when no point is left, else the kept points, with
    the median recomputed when some point went. -/
theorem filterEntry_some (who : AccountId) (pd : PriceData AccountId) :
    filterEntry who (some pd) =
      if h : withoutPointsOf who pd.pricePoints = [] then none
      else some { pd with
        price := if (withoutPointsOf who pd.pricePoints).length = pd.pricePoints.length then
          pd.price else calcMedianPrice _ h
        pricePoints := withoutPointsOf who pd.pricePoints } := by
  unfold filterEntry
  dsimp only
  by_cases h0 : withoutPointsOf who pd.pricePoints = []
  · have h0' : (withoutPointsOf who pd.pricePoints).length = 0 := by rw [h0]; rfl
    rw [dif_pos h0', dif_pos h0]
  · have h0' : (withoutPointsOf who pd.pricePoints).length ≠ 0 := fun e =>
      h0 (List.eq_nil_of_length_eq_zero e)
    rw [dif_neg h0', dif_neg h0]
    by_cases hl : (withoutPointsOf who pd.pricePoints).length = pd.pricePoints.length
    · rw [if_neg (fun h => h hl), if_pos hl]
    · rw [if_pos hl, if_neg hl]

theorem withoutPointsOf_idem (who : AccountId) (points : List (PricePoint AccountId)) :
    withoutPointsOf who (withoutPointsOf who points) = withoutPointsOf who points :=
  List.filter_eq_self.mpr (fun _ ha => (List.mem_filter.mp ha).2)

theorem filterEntry_idem (who : AccountId) (x : Option (PriceData AccountId)) :
    filterEntry who (filterEntry who x) = filterEntry who x := by
  rcases x with _ | pd
  · rfl
  · rw [filterEntry_some who pd]
    split
    · rfl
    · rename_i h0
      rw [filterEntry_some]
      dsimp only
      simp only [withoutPointsOf_idem, dif_neg h0, if_true]

/-- **`filter_prices_from` entry by entry.** -/
theorem filterPricesFrom_pricePoints (cfg : Config AccountId AssetId AssetData Public)
    (who : AccountId) (s : Storage AccountId AssetId) (asset : AssetId) :
    (filterPricesFrom cfg who s).pricePoints asset =
      if asset ∈ cfg.assetGetter.getAssets then filterEntry who (s.pricePoints asset)
      else s.pricePoints asset := by
  unfold filterPricesFrom
  generalize cfg.assetGetter.getAssets = l
  induction l generalizing s with
  | nil => simp
  | cons b l ih =>
    rw [List.foldl_cons, ih]
    by_cases hb : asset = b
    · subst hb; simp [filterEntry_idem]
    · by_cases hl : asset ∈ l <;> simp [hb, hl]

/-! ## §5. `on_initialize`. -/

section OnInitialize

variable (cfg : Config AccountId AssetId AssetData Public) (env : Env AccountId AssetId)

/-- An asset of the registry with neither a constant nor a correlated price. -/
def NoOverlay (asset : AssetId) : Prop :=
  ∃ d, cfg.assetGetter.getAssetData asset = .ok d ∧ cfg.specialPrices asset d = none ∧
    cfg.directPriceCorrelation asset d = none

omit [DecidableEq AccountId] in
theorem onInitializeAsset_frame {asset : AssetId} (hno : NoOverlay cfg asset)
    {e : AssetId × AssetData} (he : e ∈ cfg.assetGetter.assetsData)
    {acc r : Storage AccountId AssetId × List (Effect AccountId AssetId)}
    (h : onInitializeAsset cfg env acc e = some r) :
    r.1.pricePoints asset = acc.1.pricePoints asset := by
  obtain ⟨d, hd, hsp, hco⟩ := hno
  by_cases hea : asset = e.1
  · have hd' : d = e.2 := by
      have := AssetGetter.getAssetData_of_mem he
      rw [← hea, hd] at this; exact Except.ok.inj this
    subst hea hd'
    simp only [onInitializeAsset, hsp, hco, Option.some.injEq] at h
    rw [← h]
  · unfold onInitializeAsset at h
    split at h
    · cases h; simp [setTheOnlyPrice, hea]
    · split at h
      · cases h; rfl
      · split at h
        · cases h; rfl
        · split at h
          · cases h
          · cases h; simp [setTheOnlyPrice, hea]

omit [DecidableEq AccountId] in
/-- **`on_initialize` leaves every asset without an overlay alone.** -/
theorem onInitialize_frame {asset : AssetId} (hno : NoOverlay cfg asset)
    {s : Storage AccountId AssetId} {r : Storage AccountId AssetId × List (Effect AccountId AssetId)}
    (h : onInitialize cfg env s = some r) : r.1.pricePoints asset = s.pricePoints asset := by
  unfold onInitialize at h
  suffices ∀ (l : List (AssetId × AssetData)) acc, (∀ e ∈ l, e ∈ cfg.assetGetter.assetsData) →
      l.foldlM (onInitializeAsset cfg env) acc = some r → r.1.pricePoints asset = acc.1.pricePoints asset from
    this _ _ (fun _ h => h) h
  intro l
  induction l with
  | nil => intro acc _ h; cases h; rfl
  | cons e l ih =>
    intro acc hl h
    simp only [List.foldlM_cons, Option.bind_eq_bind, Option.bind_eq_some] at h
    obtain ⟨acc', h1, h2⟩ := h
    rw [ih acc' (fun x hx => hl x (List.mem_cons_of_mem _ hx)) h2,
      onInitializeAsset_frame cfg env hno (hl e (List.mem_cons_self _ _)) h1]

end OnInitialize

end EqOracle.Pallet
