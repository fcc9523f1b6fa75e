/-
  EqOracle.PriceSource.GetPrices
  ──────────────────────────────
  **WHAT `get_prices` RETURNS, AND WHEN IT PANICS.**

  The loop of `JsonPriceSource::get_prices` handles each asset on its own (`priceFor` reads
  only that asset's HTTP outcome, `priceFor_congr`) and pushes its entries in input order.
  But a panic in one iteration ends the offchain worker, and with it every asset's result:

    * `getPricesFrom_eq_none_iff` — the call panics exactly when one iteration does;
    * `getPricesFrom_of_no_panic` — otherwise it returns, in input order, one entry for each
      asset the iteration does not skip;
    * `priceFor_eq_skip_iff` — an asset is skipped exactly when a restriction set is stored,
      the asset has a symbol, and the set does not name it (an asset without a symbol gets a
      `Symbol` error entry);
    * `priceFor_eq_none_iff` — an iteration panics exactly when its fetch panics (an array
      index past `usize::MAX` in the path) or its strategy is `reverse` and the fetched price
      is zero;
    * `getPrices_reverse_zero_price_panics` — a zero price under `reverse` panics the whole
      call, whatever the other assets' outcomes;
    * `getPricesFrom_assets_sublist`, `getPricesFrom_nonneg` — an answer names each registry
      asset at most once, in registry order, and every price in it is non-negative (a scaled
      `f64` saturated from below at zero, or the reciprocal of one).
-/
import EqOracle.PriceSource.Json

namespace EqOracle.PriceSource

open Text Offchain

section Loop

variable {AssetId AssetData : Type} (sym : AsSymbol AssetId) (fromStr : List Char → Option Value)
  (http : AssetId → HttpOutcome) (query : List Char) (assetSettings : Settings)

/-- The entry the loop pushes for an asset, if any. -/
def entryOf (asset : AssetId) : Option AssetStep → Option (AssetId × Except (List Char) FixedI64)
  | some (.push price) => some (asset, price.mapError PriceSourceError.toStr)
  | _ => none

/-- **The whole call panics exactly when one iteration does.** -/
theorem getPricesFrom_eq_none_iff (assets : List (AssetId × AssetData)) :
    getPricesFrom sym fromStr http query assetSettings assets = none ↔
      ∃ e ∈ assets, priceFor sym fromStr http query assetSettings e.1 = none := by
  induction assets with
  | nil => simp only [getPricesFrom, reduceCtorEq, List.not_mem_nil, false_and, exists_false]
  | cons e rest ih =>
    obtain ⟨asset, _⟩ := e
    simp only [getPricesFrom, List.mem_cons, exists_eq_or_imp]
    cases priceFor sym fromStr http query assetSettings asset with
    | none => simp only [true_or]
    | some step =>
      cases step <;> simp only [ih, Option.map_eq_map, Option.map_eq_none', reduceCtorEq, false_or]

/-- **Without a panic, one entry per asset not skipped, in input order.** -/
theorem getPricesFrom_of_no_panic (assets : List (AssetId × AssetData))
    (h : ∀ e ∈ assets, priceFor sym fromStr http query assetSettings e.1 ≠ none) :
    getPricesFrom sym fromStr http query assetSettings assets =
      some (assets.filterMap fun e => entryOf e.1 (priceFor sym fromStr http query assetSettings e.1)) := by
  induction assets with
  | nil => rfl
  | cons e rest ih =>
    obtain ⟨asset, d⟩ := e
    have ih := ih fun e he => h e (List.mem_cons_of_mem _ he)
    simp only [getPricesFrom, List.filterMap_cons]
    cases hp : priceFor sym fromStr http query assetSettings asset with
    | none => exact absurd hp (h (asset, d) (List.mem_cons_self _ _))
    | some step => cases step <;> simp [entryOf, ih]

/-- **Each asset's iteration reads only its own HTTP outcome.** -/
theorem priceFor_congr {http' : AssetId → HttpOutcome} {asset : AssetId}
    (h : http asset = http' asset) :
    priceFor sym fromStr http query assetSettings asset =
      priceFor sym fromStr http' query assetSettings asset := by
  simp only [priceFor, h]

/-- **Which assets are skipped.** -/
theorem priceFor_eq_skip_iff (asset : AssetId) :
    priceFor sym fromStr http query assetSettings asset = some .skip ↔
      assetSettings ≠ [] ∧ ∃ symbol, sym.getSymbol asset = some symbol ∧
        assetSettings.get symbol = none := by
  unfold priceFor
  split
  · rename_i h
    simp only [h, ne_eq, not_true_eq_false, false_and, iff_false]
    cases (fetchPrice fromStr sym (http asset) asset query).run <;> simp
  · rename_i h
    cases hs : sym.getSymbol asset with
    | none => simp
    | some symbol =>
      cases hg : assetSettings.get symbol with
      | none => simp [h, hg]
      | some strategy =>
        simp only [hg, Option.some.injEq, exists_eq_left', reduceCtorEq, and_false, iff_false]
        rcases (fetchPrice fromStr sym (http asset) asset query).run with _ | _ | price <;> simp
        split_ifs <;> (try cases price.reciprocal) <;> simp

/-- **When an iteration panics**: its fetch panics, or it applies `reverse` to a zero price. -/
theorem priceFor_eq_none_iff (asset : AssetId) :
    priceFor sym fromStr http query assetSettings asset = none ↔
      ((assetSettings = [] ∨ ∃ symbol strategy, sym.getSymbol asset = some symbol ∧
          assetSettings.get symbol = some strategy) ∧
        (fetchPrice fromStr sym (http asset) asset query).run = none) ∨
      (assetSettings ≠ [] ∧ ∃ symbol price, sym.getSymbol asset = some symbol ∧
        assetSettings.get symbol = some "reverse".toList ∧
        (fetchPrice fromStr sym (http asset) asset query).run = some (.ok price) ∧
        price.inner = 0) := by
  unfold priceFor
  split
  · rename_i h
    simp only [h, true_or, true_and, ne_eq, not_true_eq_false, false_and, or_false,
      Option.map_eq_none']
  · rename_i h
    cases hs : sym.getSymbol asset with
    | none => simp [h]
    | some symbol =>
      cases hg : assetSettings.get symbol with
      | none => simp [h, hg]
      | some strategy =>
        cases hf : (fetchPrice fromStr sym (http asset) asset query).run with
        | none => simp [h, hg, hf]
        | some r =>
          cases r with
          | error e => simp [h, hg, hf]
          | ok price =>
            by_cases hp : strategy = "price".toList
            · subst hp; simp [h, hg, hf]
            · by_cases hr : strategy = "reverse".toList
              · subst hr; simp [h, hg, hf, FixedI64.reciprocal_eq_none_iff]
              · simp only [hg, hf, hp, hr, if_false]
                refine iff_of_false (by simp) ?_
                rintro (⟨-, hfn⟩ | ⟨-, sym', price', hs', hg', -⟩)
                · cases hfn
                · cases Option.some.inj hs'
                  exact hr (Option.some.inj (hg.symm.trans hg'))

end Loop

/-! ## What the answer holds. -/

section Answer

variable {AssetId AssetData : Type} {sym : AsSymbol AssetId} {fromStr : List Char → Option Value}
  {http : AssetId → HttpOutcome} {query : List Char} {assetSettings : Settings}

/-- Every price `priceOfValue` gives is an `f64` scaled by `saturating_from_rational`. -/
theorem priceOfValue_eq_ok {val : Value} {p : FixedI64} (h : priceOfValue val = .ok p) :
    ∃ x, p = FixedI64.saturatingFromRational (scaledU128 x) maxAccuracy := by
  unfold priceOfValue at h
  cases val <;> simp [bind, Except.bind, pure, Except.pure, throw, throwThe, MonadExceptOf.throw] at h
  case number => exact ⟨_, h.symm⟩
  case string s =>
    cases hx : parseF64 s <;> simp only [hx, reduceCtorEq, Except.ok.injEq] at h
    exact ⟨_, h.symm⟩

/-- `fetch_price_from_json` returns the price of the value its path selects. -/
theorem fetchPriceFromJson_eq_ok {body path : List Char} {p : FixedI64}
    (h : (fetchPriceFromJson fromStr body path).run = some (.ok p)) :
    ∃ x, p = FixedI64.saturatingFromRational (scaledU128 x) maxAccuracy := by
  unfold fetchPriceFromJson at h
  simp only at h
  split at h
  · obtain ⟨_, -, h⟩ := Fallible.run_bind_eq_ok.mp h
    obtain ⟨w, -, h⟩ := Fallible.run_bind_eq_ok.mp h
    cases hp : priceOfValue w with
    | error e => simp [hp] at h
    | ok q =>
      simp [hp, pure, ExceptT.pure, ExceptT.mk, ExceptT.run] at h
      exact priceOfValue_eq_ok (h ▸ hp)
  · obtain ⟨_, h', -⟩ := Fallible.run_bind_eq_ok.mp h
    simp at h'

/-- A price `fetch_price` returns is the one `fetch_price_from_json` read from some body. -/
theorem fetchPrice_eq_ok {outcome : HttpOutcome} {asset : AssetId} {p : FixedI64}
    (h : (fetchPrice fromStr sym outcome asset query).run = some (.ok p)) :
    ∃ body path, (fetchPriceFromJson fromStr body path).run = some (.ok p) := by
  unfold fetchPrice at h
  simp only at h
  split at h
  · split at h
    · simp [Fallible.run_bind_eq_ok] at h
    · obtain ⟨_, -, h⟩ := Fallible.run_bind_eq_ok.mp h
      split at h <;> obtain ⟨_, h', h⟩ := Fallible.run_bind_eq_ok.mp h
      · split at h <;> obtain ⟨_, h'', h⟩ := Fallible.run_bind_eq_ok.mp h
        · exact ⟨_, _, h⟩
        · simp at h''
      · simp at h'
  · simp at h

theorem fetchPrice_nonneg {outcome : HttpOutcome} {asset : AssetId} {p : FixedI64}
    (h : (fetchPrice fromStr sym outcome asset query).run = some (.ok p)) : 0 ≤ p.inner := by
  obtain ⟨_, _, h⟩ := fetchPrice_eq_ok h
  obtain ⟨_, rfl⟩ := fetchPriceFromJson_eq_ok h
  exact FixedI64.saturatingFromRational_nonneg _ _

/-- A price an iteration pushes is non-negative: a fetched one, or the reciprocal of one. -/
theorem priceFor_nonneg {asset : AssetId} {p : FixedI64}
    (h : priceFor sym fromStr http query assetSettings asset = some (.push (.ok p))) :
    0 ≤ p.inner := by
  unfold priceFor at h
  split at h
  · obtain ⟨_, hr, he⟩ := Option.map_eq_some'.mp h
    cases he
    exact fetchPrice_nonneg hr
  · split at h
    · split at h
      · split at h <;> try cases h
        rename_i q hq
        split_ifs at h <;> try cases h
        · exact fetchPrice_nonneg hq
        · obtain ⟨_, hr, he⟩ := Option.map_eq_some'.mp h
          cases he
          exact FixedI64.reciprocal_nonneg hr (fetchPrice_nonneg hq)
      · cases h
    · cases h

/-- An answer is the entries of the iterations, in input order. -/
theorem getPricesFrom_eq_some {assets : List (AssetId × AssetData)}
    {prices : List (AssetId × Except (List Char) FixedI64)}
    (h : getPricesFrom sym fromStr http query assetSettings assets = some prices) :
    prices = assets.filterMap fun e => entryOf e.1 (priceFor sym fromStr http query assetSettings e.1) := by
  have hnp : ∀ e ∈ assets, priceFor sym fromStr http query assetSettings e.1 ≠ none :=
    fun e he hn => absurd ((getPricesFrom_eq_none_iff ..).mpr ⟨e, he, hn⟩) (by simp [h])
  rw [getPricesFrom_of_no_panic _ _ _ _ _ _ hnp] at h
  exact (Option.some.inj h).symm

theorem entryOf_fst {asset : AssetId} {step : Option AssetStep}
    {x : AssetId × Except (List Char) FixedI64} (h : entryOf asset step = some x) : x.1 = asset := by
  unfold entryOf at h
  split at h
  · cases h; rfl
  · cases h

theorem map_fst_filterMap_entryOf (g : AssetId → Option AssetStep) :
    ∀ assets : List (AssetId × AssetData),
      ((assets.filterMap fun e => entryOf e.1 (g e.1)).map Prod.fst).Sublist (assets.map Prod.fst)
  | [] => .slnil
  | e :: rest => by
    have ih := map_fst_filterMap_entryOf g rest
    simp only [List.filterMap_cons, List.map_cons]
    cases h : entryOf e.1 (g e.1) with
    | none => exact ih.cons _
    | some x => rw [List.map_cons, entryOf_fst h]; exact ih.cons₂ _

/-- **The answer's assets are a sublist of the input's**: each asset at most once when the
    registry holds it once. -/
theorem getPricesFrom_assets_sublist {assets : List (AssetId × AssetData)}
    {prices : List (AssetId × Except (List Char) FixedI64)}
    (h : getPricesFrom sym fromStr http query assetSettings assets = some prices) :
    (prices.map Prod.fst).Sublist (assets.map Prod.fst) :=
  getPricesFrom_eq_some h ▸ map_fst_filterMap_entryOf _ assets

/-- **Every price of the answer is non-negative.** -/
theorem getPricesFrom_nonneg {assets : List (AssetId × AssetData)}
    {prices : List (AssetId × Except (List Char) FixedI64)}
    (h : getPricesFrom sym fromStr http query assetSettings assets = some prices)
    {asset : AssetId} {p : FixedI64} (hp : (asset, .ok p) ∈ prices) : 0 ≤ p.inner := by
  rw [getPricesFrom_eq_some h, List.mem_filterMap] at hp
  obtain ⟨e, -, he⟩ := hp
  unfold entryOf at he
  split at he
  · rename_i price hpf
    cases price with
    | ok q =>
      obtain ⟨-, hq⟩ := Prod.mk.inj (Option.some.inj he)
      cases hq
      exact priceFor_nonneg hpf
    | error e => simp [Except.mapError] at he
  · cases he

end Answer

/-! ## The failing input. -/

/-- The bytes of an ASCII text. -/
def asciiBytes (s : String) : List UInt8 := s.toList.map fun c => UInt8.ofNat c.toNat

/-- The query of `JsonPriceSource`'s documentation. -/
def docQuery : List Char := "json(https://ftx.com/api/markets/\x7b$\x7d/USD).result.price".toList

/-- A body whose price is `0`. -/
def zeroPriceBody : List Char := "\x7b\"result\":\x7b\"price\":0\x7d\x7d".toList

/-- That body, parsed. -/
def zeroPriceValue : Value := .object [("result".toList, .object [("price".toList, .number ⟨0, 0⟩)])]

/-- **`reverse` of a zero price panics, and takes every asset's result with it.**  With the
    restriction set `eq:reverse`, a deserializer that reads the body `{"result":{"price":0}}`
    as it is, and that body for `EQ`, `get_prices` of `EQ` and `BTC` panics in
    `reciprocal().expect("Price should be more than 0")`, whatever `BTC`'s outcome. -/
theorem getPrices_reverse_zero_price_panics (fromStr : List Char → Option Value)
    (hbody : fromStr zeroPriceBody = some zeroPriceValue) (btc : HttpOutcome) :
    JsonPriceSource.getPrices Asset.asSymbol fromStr ⟨docQuery, [(Asset.eq, ()), (⟨0x627463⟩, ())]⟩
      (some (asciiBytes "eq:reverse"))
      (fun a => if a = Asset.eq then .response 200 (zeroPriceBody.map fun c => UInt8.ofNat c.toNat)
        else btc) = none := by
  have hfetch : (fetchPrice fromStr Asset.asSymbol
      (.response 200 (zeroPriceBody.map fun c => UInt8.ofNat c.toNat)) Asset.eq docQuery).run =
      some (.ok FixedI64.zero) := by
    show (fetchPriceFromJson fromStr zeroPriceBody "result.price".toList).run = _
    simp only [fetchPriceFromJson, hbody]
    rfl
  refine (getPricesFrom_eq_none_iff _ _ _ _ _ _).mpr ⟨(Asset.eq, ()), List.mem_cons_self _ _, ?_⟩
  refine (priceFor_eq_none_iff _ _ _ _ _ _).mpr (.inr ⟨by decide, "eq".toList, FixedI64.zero,
    by decide, by decide, ?_, rfl⟩)
  simpa using hfetch

theorem getPrices_reverse_zero_price_panics_serde :
    (fun s => if s = zeroPriceBody then some zeroPriceValue else none) zeroPriceBody =
        some zeroPriceValue ∧
      JsonPriceSource.getPrices Asset.asSymbol
        (fun s => if s = zeroPriceBody then some zeroPriceValue else none)
        ⟨docQuery, [(Asset.eq, ()), (⟨0x627463⟩, ())]⟩ (some (asciiBytes "eq:reverse"))
        (fun a => if a = Asset.eq then .response 200 (zeroPriceBody.map fun c => UInt8.ofNat c.toNat)
          else .failed .deadlineReached) = none :=
  ⟨if_pos rfl, getPrices_reverse_zero_price_panics _ (if_pos rfl) _⟩

/-- **A stored empty restriction set fetches nothing.**  `get_asset_settings` of the empty
    string reads one item, the empty one, and maps its symbol `""` to `price` (so does the
    empty item after a trailing `,`); the set is then not empty, so `get_prices` skips every
    asset whose symbol is not `""`: of `EQ` and `BTC` it returns no entry at all, whatever the
    query, the deserializer and the HTTP outcomes. -/
theorem getPrices_empty_settings_fetches_nothing (fromStr : List Char → Option Value)
    (query : List Char) (http : Asset → HttpOutcome) :
    getAssetSettings (some []) = [([], "price".toList)] ∧
      (getAssetSettings (some (asciiBytes "btc,"))).get [] = some "price".toList ∧
      JsonPriceSource.getPrices Asset.asSymbol fromStr ⟨query, [(Asset.eq, ()), (⟨0x627463⟩, ())]⟩
        (some []) http = some [] :=
  ⟨rfl, rfl, rfl⟩

end EqOracle.PriceSource
