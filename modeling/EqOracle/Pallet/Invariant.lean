/-
  EqOracle.Pallet.Invariant
  ─────────────────────────
  **THE ENTRY INVARIANT HOLDS IN EVERY REACHABLE STATE.**

  `EntryInv` is what the medianizer relies on for every stored `PriceData`: points sorted by
  price (binary-search insertion is only right on a sorted list), one point per account, the
  aggregate equal to the median of the points, every point younger than `PriceTimeout` at the
  entry's timestamp.  Each writer of `PricePoints` keeps it:

      set_price_inner      `updatedPriceData_inv`
      set_the_only_price   `setTheOnlyPrice_inv`
      filter_prices_from   `filterEntry_inv`, `filterPricesFrom_inv`
      on_initialize        `onInitialize_inv`
      genesis build        `genesisBuild_inv`

  and `Reachable.storageInv` assembles them by induction over the reachability derivation.
  The module also states what one successful `set_price_inner` does to its entry
  (`setPriceInner_result`: the mean of the two middle prices when their sum stays in `i64`,
  and the exact eviction test when `timestamp + PriceTimeout` stays in `u64`; at the edges
  both fail, `setPriceInner_result_overflows`) and what a failing submission leaves
  (`submission_error_frame`).
-/
import EqOracle.Pallet.Spec

namespace EqOracle.Pallet

open FixedI64

variable {AccountId AssetId AssetData Public : Type} [DecidableEq AccountId] [DecidableEq AssetId]

/-! ## §1. The invariant. -/

/-- The invariant of one stored entry, for a given `PriceTimeout`. -/
structure EntryInv (priceTimeout : Nat) (pd : PriceData AccountId) : Prop where
  sorted : PricesSorted pd.pricePoints
  nodup : (pd.pricePoints.map (·.accountId)).Nodup
  median : ∀ h : pd.pricePoints ≠ [], pd.price = calcMedianPrice pd.pricePoints h
  live : ∀ pp ∈ pd.pricePoints, pp.timestamp + priceTimeout > pd.timestamp

/-- Every stored entry satisfies `EntryInv`. -/
def StorageInv (priceTimeout : Nat) (s : Storage AccountId AssetId) : Prop :=
  ∀ asset pd, s.pricePoints asset = some pd → EntryInv priceTimeout pd

omit [DecidableEq AccountId] in
/-- An entry without points satisfies the invariant whatever its price. -/
theorem EntryInv.of_nil {pt : Nat} {pd : PriceData AccountId} (h : pd.pricePoints = []) :
    EntryInv pt pd :=
  ⟨by simp [PricesSorted, SortedBy, h], by simp [h], fun hne => absurd h hne, by simp [h]⟩

omit [DecidableEq AccountId] [DecidableEq AssetId] in
theorem StorageInv.entry {pt : Nat} {s : Storage AccountId AssetId} (h : StorageInv pt s)
    (asset : AssetId) : EntryInv pt (s.entry asset) :=
  Storage.entry_of (EntryInv.of_nil rfl) (h asset)

omit [DecidableEq AccountId] in
theorem StorageInv.insert {pt : Nat} {s : Storage AccountId AssetId} (h : StorageInv pt s)
    {asset : AssetId} {v : PriceData AccountId} (hv : EntryInv pt v) :
    StorageInv pt (s.insert asset v) := by
  intro a pd ha
  by_cases hab : a = asset
  · subst hab; simp only [Storage.insert_self, Option.some.injEq] at ha; exact ha ▸ hv
  · rw [Storage.insert_ne _ _ hab] at ha; exact h a pd ha

/-! ## §2. Each writer keeps it. -/

section Writers

variable (cfg : Config AccountId AssetId AssetData Public) (env : Env AccountId AssetId)

omit [DecidableEq AssetId] in
/-- **`set_price_inner` keeps the invariant.**  Sorted by `updatedPriceData_sorted`; one point
    per account since `who`'s old point is evicted; the new point is live as `PriceTimeout ≥ 1`. -/
theorem updatedPriceData_inv (hpt : 1 ≤ cfg.priceTimeout) (who : AccountId) (price : FixedI64)
    {pd : PriceData AccountId} (h : EntryInv cfg.priceTimeout pd) :
    EntryInv cfg.priceTimeout (updatedPriceData cfg env who price pd) := by
  have hperm := updatedPriceData_perm cfg env who price pd
  refine ⟨updatedPriceData_sorted cfg env who price h.sorted, ?_,
    updatedPriceData_price cfg env who price pd, ?_⟩
  · rw [(hperm.map _).nodup_iff, List.map_append, List.nodup_append]
    refine ⟨h.nodup.sublist ((retained_sublist cfg env who _).map _), by simp, ?_⟩
    intro a ha hb
    obtain ⟨pp, hpp, rfl⟩ := List.mem_map.mp ha
    simp only [newPoint, List.map_cons, List.map_nil, List.mem_singleton] at hb
    exact ((mem_retained cfg env who).mp hpp).2.2 hb
  · intro pp hpp
    rcases (mem_updatedPriceData cfg env who price).mp hpp with hk | rfl
    · exact now_lt_of_mem_retained cfg env who hk
    · simp only [newPoint, updatedPriceData_timestamp]; omega

theorem setPriceInner_inv (hpt : 1 ≤ cfg.priceTimeout) {who : AccountId} {asset : AssetId}
    {price : FixedI64} {s : Storage AccountId AssetId} (hs : StorageInv cfg.priceTimeout s)
    {r : Storage AccountId AssetId × List (Effect AccountId AssetId)}
    (h : setPriceInner cfg env who asset price s = .ok r) : StorageInv cfg.priceTimeout r.1 := by
  rw [setPriceInner_eq] at h
  split at h
  · cases h
  · cases h; exact hs.insert (updatedPriceData_inv cfg env hpt who price (hs.entry asset))

omit [DecidableEq AccountId] in
theorem setTheOnlyPrice_inv (hpt : 1 ≤ cfg.priceTimeout) (asset : AssetId) (price : FixedI64)
    {s : Storage AccountId AssetId} (hs : StorageInv cfg.priceTimeout s) :
    StorageInv cfg.priceTimeout (setTheOnlyPrice cfg env asset price s).1 :=
  hs.insert ⟨List.pairwise_singleton _ _, List.nodup_singleton _, fun _ => by simp,
    by simp; omega⟩

/-- **`filter_prices_from` keeps the invariant**: the kept points are a sublist, the median is
    recomputed when a point went, and unchanged lists keep their median. -/
theorem filterEntry_inv {pt : Nat} (who : AccountId) {x : Option (PriceData AccountId)}
    (hx : ∀ pd, x = some pd → EntryInv pt pd) :
    ∀ pd', filterEntry who x = some pd' → EntryInv pt pd' := by
  intro pd' h
  rcases x with _ | pd
  · cases h
  · have hpd := hx pd rfl
    rw [filterEntry_some] at h
    split at h
    · cases h
    · rename_i h0
      cases h
      have hsub : (withoutPointsOf who pd.pricePoints).Sublist pd.pricePoints :=
        List.filter_sublist _
      refine ⟨hpd.sorted.sublist hsub, hpd.nodup.sublist (hsub.map _), fun hne => ?_,
        fun pp hpp => hpd.live pp (hsub.subset hpp)⟩
      dsimp only
      split
      · rename_i hl
        have heq := hsub.eq_of_length hl
        simp only [heq]
        exact hpd.median _
      · rfl

theorem filterPricesFrom_inv (who : AccountId) {s : Storage AccountId AssetId}
    (hs : StorageInv cfg.priceTimeout s) :
    StorageInv cfg.priceTimeout (filterPricesFrom cfg who s) := by
  intro asset pd h
  rw [filterPricesFrom_pricePoints] at h
  split at h
  · exact filterEntry_inv who (hs asset) pd h
  · exact hs asset pd h

omit [DecidableEq AccountId] in
theorem onInitializeAsset_inv (hpt : 1 ≤ cfg.priceTimeout)
    {acc r : Storage AccountId AssetId × List (Effect AccountId AssetId)}
    (hacc : StorageInv cfg.priceTimeout acc.1) (e : AssetId × AssetData)
    (h : onInitializeAsset cfg env acc e = some r) : StorageInv cfg.priceTimeout r.1 := by
  unfold onInitializeAsset at h
  split at h
  · cases h; exact setTheOnlyPrice_inv cfg env hpt _ _ hacc
  · split at h
    · cases h; exact hacc
    · split at h
      · cases h; exact hacc
      · split at h
        · cases h
        · cases h; exact setTheOnlyPrice_inv cfg env hpt _ _ hacc

omit [DecidableEq AccountId] in
theorem onInitialize_inv (hpt : 1 ≤ cfg.priceTimeout) {s : Storage AccountId AssetId}
    (hs : StorageInv cfg.priceTimeout s)
    {r : Storage AccountId AssetId × List (Effect AccountId AssetId)}
    (h : onInitialize cfg env s = some r) : StorageInv cfg.priceTimeout r.1 := by
  unfold onInitialize at h
  suffices ∀ (l : List (AssetId × AssetData)) acc, StorageInv cfg.priceTimeout acc.1 →
      l.foldlM (onInitializeAsset cfg env) acc = some r → StorageInv cfg.priceTimeout r.1 from
    this _ _ hs h
  intro l
  induction l with
  | nil => intro acc hacc h; cases h; exact hacc
  | cons e l ih =>
    intro acc hacc h
    simp only [List.foldlM_cons, Option.bind_eq_bind, Option.bind_eq_some] at h
    obtain ⟨acc', h1, h2⟩ := h
    exact ih acc' (onInitializeAsset_inv cfg env hpt hacc e h1) h2

omit [DecidableEq AccountId] in
theorem genesisBuild_inv (prices : List (AssetId × FixedI64)) (updateDate : Nat) :
    StorageInv cfg.priceTimeout (genesisBuild cfg prices updateDate) := by
  have h₀ : StorageInv cfg.priceTimeout (⟨fun _ => none⟩ : Storage AccountId AssetId) :=
    fun _ _ h => by cases h
  exact List.foldlRecOn _ _ _
    (List.foldlRecOn _ _ _ h₀ fun _ hs _ _ => hs.insert (EntryInv.of_nil rfl))
    fun _ hs _ _ => hs.insert (EntryInv.of_nil rfl)

end Writers


/-! ## §3. Every reachable storage. -/

section Dispatch

variable (cfg : Config AccountId AssetId AssetData Public) (env : Env AccountId AssetId)

theorem submitPrice_inv (hpt : 1 ≤ cfg.priceTimeout) {who : AccountId} {asset : AssetId}
    {price : FixedI64} {vb : Nat} {s : Storage AccountId AssetId}
    (hs : StorageInv cfg.priceTimeout s)
    {r : Storage AccountId AssetId × List (Effect AccountId AssetId)}
    (h : submitPrice cfg env who asset price vb s = .ok r) : StorageInv cfg.priceTimeout r.1 := by
  unfold submitPrice at h
  split at h
  · cases h
  · exact setPriceInner_inv cfg env hpt hs h

omit [DecidableEq AccountId] [DecidableEq AssetId] in
theorem ofResult_inv {pt : Nat} {s : Storage AccountId AssetId}
    {x : Except DispatchError (Storage AccountId AssetId × List (Effect AccountId AssetId))}
    (hs : StorageInv pt s) (hx : ∀ r, x = .ok r → StorageInv pt r.1) :
    StorageInv pt (Outcome.ofResult s x).storage := by
  cases x with
  | error _ => exact hs
  | ok r => exact hx r rfl

/-- **One call keeps the invariant.** -/
theorem dispatch_inv (hpt : 1 ≤ cfg.priceTimeout) {s : Storage AccountId AssetId}
    (hs : StorageInv cfg.priceTimeout s) {call : Call AccountId AssetId Public}
    {o : Outcome AccountId AssetId} (h : dispatch cfg env s call = some o) :
    StorageInv cfg.priceTimeout o.storage := by
  cases call with
  | setPrice origin asset price =>
    cases h
    refine ofResult_inv hs fun r hr => ?_
    cases origin <;> (try cases hr)
    exact submitPrice_inv cfg env hpt hs hr
  | setPriceUnsigned origin payload =>
    cases h
    refine ofResult_inv hs fun r hr => ?_
    cases origin <;> (try cases hr)
    exact submitPrice_inv cfg env hpt hs hr
  | onInitialize =>
    simp only [dispatch, Option.map_eq_some'] at h
    obtain ⟨r, hr, rfl⟩ := h
    exact onInitialize_inv cfg env hpt hs hr
  | filterPricesFrom who =>
    cases h
    exact filterPricesFrom_inv cfg who hs

end Dispatch

theorem Reachable.storageInv {cfg : Config AccountId AssetId AssetData Public}
    (hpt : 1 ≤ cfg.priceTimeout) {s : Storage AccountId AssetId} (h : Reachable cfg s) :
    StorageInv cfg.priceTimeout s := by
  induction h with
  | genesis prices updateDate => exact genesisBuild_inv cfg prices updateDate
  | step env call _ hd ih => exact dispatch_inv cfg env hpt ih hd

/-- **The medianizer's invariant.**  In every storage reachable from a genesis build, with
    `PriceTimeout ≥ 1`, every stored entry has its points sorted by price, at most one point
    per account, its price equal to the median of its points when it has any, and every
    point younger than `PriceTimeout` at the entry's timestamp. -/
theorem reachable_priceData_invariant {cfg : Config AccountId AssetId AssetData Public}
    (hpt : 1 ≤ cfg.priceTimeout) {s : Storage AccountId AssetId} (hs : Reachable cfg s)
    {asset : AssetId} {pd : PriceData AccountId} (h : s.pricePoints asset = some pd) :
    pd.pricePoints.Pairwise (fun a b => a.price.inner ≤ b.price.inner) ∧
      (pd.pricePoints.map (·.accountId)).Nodup ∧
      (∀ hne : pd.pricePoints ≠ [], pd.price = calcMedianPrice pd.pricePoints hne) ∧
      ∀ pp ∈ pd.pricePoints, pp.timestamp + cfg.priceTimeout > pd.timestamp :=
  have hinv := hs.storageInv hpt asset pd h
  ⟨hinv.sorted, hinv.nodup, hinv.median, hinv.live⟩

namespace Mock

theorem reachable_twoFeeders : Reachable config twoFeeders :=
  .step (env 1 0) (.setPrice (.signed 2) EQ (saturatingFromInteger 3))
    (.step (env 1 0) (.setPrice (.signed 1) EQ one) (.genesis [] 0) rfl) rfl

theorem twoFeeders_EQ : twoFeeders.pricePoints EQ = some ⟨1, 0, saturatingFromInteger 2,
    [⟨1, 0, one, 1⟩, ⟨1, 0, saturatingFromInteger 3, 2⟩]⟩ := by
  decide

end Mock

/-- The entry two feeders leave in one block of the mock. -/
theorem reachable_priceData_invariant_mock :
    1 ≤ Mock.config.priceTimeout ∧ Reachable Mock.config Mock.twoFeeders ∧
      Mock.twoFeeders.pricePoints Mock.EQ = some ⟨1, 0, saturatingFromInteger 2,
        [⟨1, 0, one, 1⟩, ⟨1, 0, saturatingFromInteger 3, 2⟩]⟩ ∧
      ([⟨1, 0, one, 1⟩, ⟨1, 0, saturatingFromInteger 3, 2⟩] : List (PricePoint Nat)).Pairwise
        (fun a b => a.price.inner ≤ b.price.inner) ∧
      (([⟨1, 0, one, 1⟩, ⟨1, 0, saturatingFromInteger 3, 2⟩] : List (PricePoint Nat)).map
        (·.accountId)).Nodup ∧
      (∀ hne : ([⟨1, 0, one, 1⟩, ⟨1, 0, saturatingFromInteger 3, 2⟩] : List (PricePoint Nat)) ≠ [],
        saturatingFromInteger 2 = calcMedianPrice [⟨1, 0, one, 1⟩, ⟨1, 0, saturatingFromInteger 3, 2⟩] hne) ∧
      ∀ pp ∈ ([⟨1, 0, one, 1⟩, ⟨1, 0, saturatingFromInteger 3, 2⟩] : List (PricePoint Nat)),
        pp.timestamp + Mock.config.priceTimeout > 0 :=
  ⟨by decide, Mock.reachable_twoFeeders, Mock.twoFeeders_EQ,
    reachable_priceData_invariant (by decide) Mock.reachable_twoFeeders Mock.twoFeeders_EQ⟩

/-! ## §4. One successful `set_price_inner`. -/

/-- What a successful `set_price_inner(who, asset, price)` from `s` leaves in `s'`: a sorted
    list that is a permutation of the old points still live at `now` (`timestamp +
    PriceTimeout > now`) and not `who`'s, followed by the new point; the current block and
    time; the median of the new list: the price of rank `n / 2` for an odd length `n`, and for
    an even one, when the two middle prices' sum stays in `i64`, their mean, truncated toward
    zero to the unit `10⁻⁹`. -/
def SetPriceInnerPost (cfg : Config AccountId AssetId AssetData Public)
    (env : Env AccountId AssetId) (who : AccountId) (asset : AssetId) (price : FixedI64)
    (s s' : Storage AccountId AssetId) : Prop :=
  ∃ pd', s'.pricePoints asset = some pd' ∧
    pd'.pricePoints.Pairwise (fun a b => a.price.inner ≤ b.price.inner) ∧
    pd'.pricePoints.Perm (((s.pricePoints asset).getD PriceData.default).pricePoints.filter
        (fun pp => pp.timestamp + cfg.priceTimeout > env.now ∧ pp.accountId ≠ who) ++
      [⟨env.blockNumber, env.now, price, who⟩]) ∧
    pd'.blockNumber = env.blockNumber ∧ pd'.timestamp = env.now ∧
    ∃ hne : pd'.pricePoints ≠ [], pd'.price = calcMedianPrice pd'.pricePoints hne ∧
      let prices := pd'.pricePoints.map (·.price)
      (prices.length % 2 = 1 → pd'.price = prices.getD (prices.length / 2) zero) ∧
      (prices.length % 2 = 0 →
        -2 ^ 63 ≤ (prices.getD (prices.length / 2 - 1) zero).inner +
          (prices.getD (prices.length / 2) zero).inner →
        (prices.getD (prices.length / 2 - 1) zero).inner +
          (prices.getD (prices.length / 2) zero).inner < 2 ^ 63 →
        pd'.price.inner = ((prices.getD (prices.length / 2 - 1) zero).inner +
          (prices.getD (prices.length / 2) zero).inner).tdiv 2)

/-- **What `set_price_inner` writes**, on an entry that is absent or sorted by price and whose
    points' `timestamp + PriceTimeout` do not overflow `u64`: no other feeder's live point is
    lost or duplicated, only `who`'s old point and the timed-out ones go, and the price is the
    median of the new sorted list, by rank. -/
theorem setPriceInner_result (cfg : Config AccountId AssetId AssetData Public)
    (env : Env AccountId AssetId) (who : AccountId) (asset : AssetId) (price : FixedI64)
    {s : Storage AccountId AssetId}
    (hsorted : ∀ pd, s.pricePoints asset = some pd →
      pd.pricePoints.Pairwise (fun a b => a.price.inner ≤ b.price.inner))
    (hfit : ∀ pd, s.pricePoints asset = some pd →
      ∀ pp ∈ pd.pricePoints, pp.timestamp + cfg.priceTimeout < 2 ^ 64)
    {r : Storage AccountId AssetId × List (Effect AccountId AssetId)}
    (h : setPriceInner cfg env who asset price s = .ok r) :
    SetPriceInnerPost cfg env who asset price s r.1 := by
  rw [setPriceInner_eq] at h
  split at h
  · cases h
  · cases h
    have hs : PricesSorted (s.entry asset).pricePoints :=
      Storage.entry_of (P := fun pd => PricesSorted pd.pricePoints) List.Pairwise.nil hsorted
    have hperm := updatedPriceData_perm cfg env who price (s.entry asset)
    rw [retained_of_fits cfg env who (Storage.entry_of
      (P := fun pd => ∀ pp ∈ pd.pricePoints, pp.timestamp + cfg.priceTimeout < 2 ^ 64)
      (List.forall_mem_nil _) hfit)] at hperm
    have hne := insertIdx_ne_nil (newPoint env who price)
      (length_binarySearchBy_pos (retained cfg env who (s.entry asset).pricePoints)
        (fun dp => dp.price.cmp price))
    have hp := updatedPriceData_price cfg env who price (s.entry asset) hne
    have hrank := medianPrice_rank
      ((updatedPriceData cfg env who price (s.entry asset)).pricePoints.map (·.price)) (by simpa using hne)
    exact ⟨_, Storage.insert_self _ _ _, updatedPriceData_sorted cfg env who price hs, hperm,
      updatedPriceData_blockNumber .., updatedPriceData_timestamp .., hne, hp,
      fun hodd => hp.trans (hrank.1 hodd), fun hev h1 h2 => (congrArg (·.inner) hp).trans (hrank.2 hev h1 h2)⟩

/-- Feeder 2's `3` on feeder 1's `1` in block 1 of the mock: an even list, price `2`. -/
theorem setPriceInner_result_mock :
    (∀ pd, (Mock.submit Mock.genesis 1 0 1 Mock.EQ one).pricePoints Mock.EQ = some pd →
      pd.pricePoints.Pairwise (fun a b => a.price.inner ≤ b.price.inner)) ∧
    (∀ pd, (Mock.submit Mock.genesis 1 0 1 Mock.EQ one).pricePoints Mock.EQ = some pd →
      ∀ pp ∈ pd.pricePoints, pp.timestamp + Mock.config.priceTimeout < 2 ^ 64) ∧
    (setPriceInner Mock.config (Mock.env 1 0) 2 Mock.EQ (saturatingFromInteger 3)
      (Mock.submit Mock.genesis 1 0 1 Mock.EQ one)).map Prod.fst = .ok Mock.twoFeeders ∧
    SetPriceInnerPost Mock.config (Mock.env 1 0) 2 Mock.EQ (saturatingFromInteger 3)
      (Mock.submit Mock.genesis 1 0 1 Mock.EQ one) Mock.twoFeeders :=
  have h₀ : (Mock.submit Mock.genesis 1 0 1 Mock.EQ one).pricePoints Mock.EQ =
      some ⟨1, 0, one, [⟨1, 0, one, 1⟩]⟩ := by decide
  have hsorted : ∀ pd, (Mock.submit Mock.genesis 1 0 1 Mock.EQ one).pricePoints Mock.EQ = some pd →
      pd.pricePoints.Pairwise (fun a b => a.price.inner ≤ b.price.inner) := by
    intro pd h; rw [h₀] at h; cases h; decide
  have hfit : ∀ pd, (Mock.submit Mock.genesis 1 0 1 Mock.EQ one).pricePoints Mock.EQ = some pd →
      ∀ pp ∈ pd.pricePoints, pp.timestamp + Mock.config.priceTimeout < 2 ^ 64 := by
    intro pd h; rw [h₀] at h; cases h; decide
  ⟨hsorted, hfit, rfl, setPriceInner_result Mock.config (Mock.env 1 0) 2 Mock.EQ
    (saturatingFromInteger 3) hsorted hfit (r := (Mock.twoFeeders, _)) rfl⟩

/-- **Where the rank formula of `set_price_inner` fails.**  In the mock, after feeder 1 submits
    `max_value()` for `EQ`, feeder 2's `from_inner(1)` is accepted and the sum of the two middle
    prices wraps: the aggregate stored is `-2⁶²` units where their mean is `2⁶²`.  Under
    `PriceTimeout = u64::MAX`, feeder 2's submission at time 5 evicts feeder 1's point of time
    5, although `5 + PriceTimeout > 5`: the `u64` sum wraps to `4`. -/
theorem setPriceInner_result_overflows :
    (setPriceInner Mock.config (Mock.env 1 0) 2 Mock.EQ minPositive
        (Mock.submit Mock.genesis 1 0 1 Mock.EQ maxValue)).map Prod.fst =
      .ok (Mock.submit (Mock.submit Mock.genesis 1 0 1 Mock.EQ maxValue) 1 0 2 Mock.EQ minPositive) ∧
    ((Mock.submit (Mock.submit Mock.genesis 1 0 1 Mock.EQ maxValue) 1 0 2 Mock.EQ
      minPositive).pricePoints Mock.EQ).map (fun pd => (pd.pricePoints.map (·.price), pd.price.inner)) =
        some ([minPositive, maxValue], -2 ^ 62) ∧
    (minPositive.inner + maxValue.inner).tdiv 2 = 2 ^ 62 ∧
    (setPriceInner Mock.maxTimeoutConfig (Mock.env 1 5) 2 Mock.EQ (saturatingFromInteger 3)
        (Mock.submitMaxTimeout Mock.genesis 1 5 1 Mock.EQ one)).map Prod.fst =
      .ok (Mock.submitMaxTimeout (Mock.submitMaxTimeout Mock.genesis 1 5 1 Mock.EQ one) 1 5 2 Mock.EQ
        (saturatingFromInteger 3)) ∧
    ((Mock.submitMaxTimeout Mock.genesis 1 5 1 Mock.EQ one).pricePoints Mock.EQ).map (·.pricePoints) =
      some [⟨1, 5, one, 1⟩] ∧
    5 + Mock.maxTimeoutConfig.priceTimeout > 5 ∧
    ((Mock.submitMaxTimeout (Mock.submitMaxTimeout Mock.genesis 1 5 1 Mock.EQ one) 1 5 2 Mock.EQ
      (saturatingFromInteger 3)).pricePoints Mock.EQ).map (·.pricePoints) =
        some [⟨1, 5, saturatingFromInteger 3, 2⟩] :=
  ⟨rfl, by decide, by decide, rfl, by decide, by decide, by decide⟩

/-! ## §5. A failing submission changes nothing. -/

/-- The two dispatchables that submit a price. -/
def Call.IsSubmit : Call AccountId AssetId Public → Prop
  | .setPrice .. | .setPriceUnsigned .. => True
  | _ => False

theorem dispatch_submit (cfg : Config AccountId AssetId AssetData Public)
    (env : Env AccountId AssetId) (s : Storage AccountId AssetId)
    {call : Call AccountId AssetId Public} (hcall : call.IsSubmit) :
    dispatch cfg env s call = some (.ofResult s (match call.submission cfg env with
      | some (who, asset, price, vb) => submitPrice cfg env who asset price vb s
      | none => .error .badOrigin)) := by
  cases call with
  | setPrice origin asset price => cases origin <;> rfl
  | setPriceUnsigned origin payload => cases origin <;> rfl
  | onInitialize => cases hcall
  | filterPricesFrom who => cases hcall

theorem submitPrice_eq_error (cfg : Config AccountId AssetId AssetData Public)
    (env : Env AccountId AssetId) (who : AccountId) (asset : AssetId) (price : FixedI64)
    (vb : Nat) (s : Storage AccountId AssetId) (e : DispatchError) :
    submitPrice cfg env who asset price vb s = .error e ↔
      validateParams cfg env who asset price vb = .error e ∨
        (validateParams cfg env who asset price vb = .ok () ∧
          IsDuplicate env (s.entry asset) who ∧ e = .module .priceAlreadyAdded) := by
  unfold submitPrice
  cases validateParams cfg env who asset price vb with
  | error e' => simp
  | ok u =>
    rw [setPriceInner_eq]
    by_cases hd : IsDuplicate env (s.entry asset) who <;> simp [hd, eq_comm]

omit [DecidableEq AccountId] [DecidableEq AssetId] in
theorem Outcome.ofResult_error {s : Storage AccountId AssetId}
    {x : Except DispatchError (Storage AccountId AssetId × List (Effect AccountId AssetId))}
    {e : DispatchError} : (Outcome.ofResult s x).result = .error e ↔ x = .error e := by
  cases x <;> simp [Outcome.ofResult]

omit [DecidableEq AccountId] [DecidableEq AssetId] in
theorem Outcome.ofResult_frame {s : Storage AccountId AssetId}
    {x : Except DispatchError (Storage AccountId AssetId × List (Effect AccountId AssetId))}
    {e : DispatchError} (h : (Outcome.ofResult s x).result = .error e) :
    (Outcome.ofResult s x).storage = s ∧ (Outcome.ofResult s x).effects = [] := by
  cases x with
  | error => exact ⟨rfl, rfl⟩
  | ok => cases h

/-- What the error law says of one call from `s`: an error leaves the storage and has no
    effect; with the right origin, the call fails exactly when `validate_params` fails (with
    that error) or the duplicate check holds (with `PriceAlreadyAdded`), and succeeds when
    validation passes and the check does not hold; with another origin it fails with
    `BadOrigin`. -/
def ErrorsLeaveStorage (cfg : Config AccountId AssetId AssetData Public)
    (env : Env AccountId AssetId) (s : Storage AccountId AssetId)
    (call : Call AccountId AssetId Public) : Prop :=
  ∃ o, dispatch cfg env s call = some o ∧
    (∀ e, o.result = .error e → o.storage = s ∧ o.effects = []) ∧
    (call.submission cfg env = none → o.result = .error .badOrigin) ∧
    ∀ who asset price vb, call.submission cfg env = some (who, asset, price, vb) →
      (∀ e, o.result = .error e ↔
        validateParams cfg env who asset price vb = .error e ∨
          (validateParams cfg env who asset price vb = .ok () ∧
            IsDuplicate env (s.entry asset) who ∧ e = .module .priceAlreadyAdded)) ∧
      (validateParams cfg env who asset price vb = .ok () →
        ¬ IsDuplicate env (s.entry asset) who → o.result = .ok ())

theorem errorsLeaveStorage_of_isSubmit (cfg : Config AccountId AssetId AssetData Public)
    (env : Env AccountId AssetId) (s : Storage AccountId AssetId)
    {call : Call AccountId AssetId Public} (hcall : call.IsSubmit) :
    ErrorsLeaveStorage cfg env s call := by
  refine ⟨_, dispatch_submit cfg env s hcall, fun e he => Outcome.ofResult_frame he, ?_, ?_⟩
  · intro hn; rw [hn]; rfl
  · intro who asset price vb hsub
    rw [hsub]
    refine ⟨fun e => Outcome.ofResult_error.trans (submitPrice_eq_error ..), fun hv hnd => ?_⟩
    cases hx : submitPrice cfg env who asset price vb s with
    | ok r => simp only [hx]; rfl
    | error e =>
      rcases (submitPrice_eq_error ..).mp hx with h | ⟨_, hd, _⟩
      · rw [hv] at h; cases h
      · exact absurd hd hnd

/-- **Errors leave the storage alone**, for every `set_price` and every `set_price_unsigned`
    call, from every storage. -/
theorem submission_error_frame (cfg : Config AccountId AssetId AssetData Public)
    (env : Env AccountId AssetId) (s : Storage AccountId AssetId) :
    (∀ origin asset price, ErrorsLeaveStorage cfg env s (.setPrice origin asset price)) ∧
      ∀ origin payload, ErrorsLeaveStorage cfg env s (.setPriceUnsigned origin payload) :=
  ⟨fun _ _ _ => errorsLeaveStorage_of_isSubmit cfg env s trivial,
    fun _ _ => errorsLeaveStorage_of_isSubmit cfg env s trivial⟩

/-! ## §6. The median's range, and its overflow. -/

/-- Without overflow of the two middle prices' sum, the median lies between the two middle
    prices of a sorted list. -/
theorem medianPrice_between {prices : List FixedI64} (hs : prices.Pairwise (·.inner ≤ ·.inner))
    (h : prices ≠ [])
    (hsum : prices.length % 2 = 0 →
      (prices.getD (prices.length / 2 - 1) zero).inner + (prices.getD (prices.length / 2) zero).inner < 2 ^ 63 ∧
      -2 ^ 63 ≤ (prices.getD (prices.length / 2 - 1) zero).inner + (prices.getD (prices.length / 2) zero).inner) :
    (prices.getD ((prices.length - 1) / 2) zero).inner ≤ (medianPrice prices h).inner ∧
      (medianPrice prices h).inner ≤ (prices.getD (prices.length / 2) zero).inner := by
  have hlen := List.length_pos.mpr h
  have hrank := medianPrice_rank prices h
  rcases Nat.mod_two_eq_zero_or_one prices.length with hev | hodd
  · have hidx : (prices.length - 1) / 2 = prices.length / 2 - 1 := by omega
    have hle : (prices.getD (prices.length / 2 - 1) zero).inner ≤
        (prices.getD (prices.length / 2) zero).inner := by
      simp only [List.getD_eq_getElem?_getD, List.getElem?_eq_getElem (by omega : prices.length / 2 - 1 < prices.length),
        List.getElem?_eq_getElem (by omega : prices.length / 2 < prices.length), Option.getD_some]
      exact SortedBy.le_of_le (show SortedBy prices id from hs) _ _ (by omega)
    obtain ⟨h1, h2⟩ := hsum hev
    rw [hidx, hrank.2 hev h2 h1]
    have := tdiv_eq_ite ((prices.getD (prices.length / 2 - 1) zero).inner +
      (prices.getD (prices.length / 2) zero).inner) 2 (by decide)
    constructor <;> split at this <;> omega
  · have hidx : (prices.length - 1) / 2 = prices.length / 2 := by omega
    rw [hidx, hrank.1 hodd]; exact ⟨Int.le_refl _, Int.le_refl _⟩

/-- **The mean of the two middle prices overflows.**  In the mock runtime, one feeder submits
    `FixedI64::max_value()` and another `from_inner(1)` for `EQ` in one block: both pass
    `validate_params`, the sum of the two middle prices wraps past `i64::MAX`, the stored
    aggregate is `-2⁶²` units, and `get_price` fails with `PriceIsNegative`. -/
theorem getPrice_negative_after_overflow :
    Reachable Mock.config
        (Mock.submit (Mock.submit Mock.genesis 1 0 1 Mock.EQ maxValue) 1 0 2 Mock.EQ minPositive) ∧
      ((Mock.submit (Mock.submit Mock.genesis 1 0 1 Mock.EQ maxValue) 1 0 2 Mock.EQ
        minPositive).pricePoints Mock.EQ).map (·.price.inner) = some (-2 ^ 62) ∧
      getPrice Mock.config (Mock.env 1 0)
        (Mock.submit (Mock.submit Mock.genesis 1 0 1 Mock.EQ maxValue) 1 0 2 Mock.EQ minPositive)
        Mock.EQ = .error (.module .priceIsNegative) :=
  ⟨.step _ (.setPrice (.signed 2) Mock.EQ minPositive)
      (.step _ (.setPrice (.signed 1) Mock.EQ maxValue) (.genesis [] 0) rfl) rfl,
    by decide, rfl⟩

end EqOracle.Pallet
