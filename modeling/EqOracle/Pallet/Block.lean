/-
  EqOracle.Pallet.Block
  ─────────────────────
  **THE SUBMISSIONS OF ONE BLOCK DO NOT DEPEND ON THEIR ORDER.**

  The extrinsics of a block run one after another on the storage the previous one left.  For
  signed `set_price` calls of one asset by distinct feeders, all passing `validate_params`
  and none holding a point of the current block, every order the block author may choose
  accepts every call and leaves the same multiset of points: the prior points still live at
  `now` and not of a submitter (`survivors`), and the new ones.  The aggregate is then the
  median of those prices sorted ascending: `setPrice_block_order_independent`.

  This needs `now + PriceTimeout` to stay inside `u64`: the sum wraps in a release build, and
  at `PriceTimeout = u64::MAX` each submission evicts the points of the block before it, so
  the last submitter's price wins.  With no submission nothing is written, so the aggregate
  stays what the last writer left, which need not be the median of the prior points still
  live.  Both are in `setPrice_block_stale_or_order_dependent`.
-/
import EqOracle.Pallet.Invariant

namespace EqOracle.Pallet

open FixedI64

variable {AccountId AssetId AssetData Public : Type} [DecidableEq AccountId] [DecidableEq AssetId]

section Block

variable (cfg : Config AccountId AssetId AssetData Public) (env : Env AccountId AssetId)
  (asset : AssetId)

/-- The signed `set_price(asset, price)` calls of one block, in the order the block author
    put them; the first error is returned, so `.ok` means every call was accepted. -/
def applySubmissions :
    List (AccountId × FixedI64) → Storage AccountId AssetId →
      Except DispatchError (Storage AccountId AssetId)
  | [], s => .ok s
  | (who, price) :: rest, s =>
    match setPrice cfg env (.signed who) asset price s with
    | .ok r => applySubmissions rest r.1
    | .error e => .error e

/-- The prior points a block of submissions leaves: live at `now` by `set_price_inner`'s test
    (the `u64` sum `timestamp + PriceTimeout`), of no submitter. -/
def survivors (subs : List (AccountId × FixedI64)) (points : List (PricePoint AccountId)) :
    List (PricePoint AccountId) :=
  points.filter (fun pp => (pp.timestamp + cfg.priceTimeout) % 2 ^ 64 > env.now ∧
    pp.accountId ∉ subs.map Prod.fst)

omit [DecidableEq AssetId] in
theorem retained_eq_survivors (who : AccountId) (price : FixedI64)
    (points : List (PricePoint AccountId)) :
    retained cfg env who points = survivors cfg env [(who, price)] points := by
  simp [retained, survivors]

omit [DecidableEq AssetId] in
theorem survivors_survivors (x : AccountId × FixedI64) (rest : List (AccountId × FixedI64))
    (points : List (PricePoint AccountId)) :
    survivors cfg env rest (survivors cfg env [x] points) = survivors cfg env (x :: rest) points := by
  simp only [survivors, List.filter_filter]
  congr 1; funext pp
  rw [Bool.eq_iff_iff]
  simp only [Bool.and_eq_true, decide_eq_true_eq, List.map_cons, List.map_nil, List.mem_cons,
    List.not_mem_nil, or_false]
  tauto

omit [DecidableEq AssetId] in
/-- The new point of a feeder outside `rest` survives the rest of the block, when
    `now + PriceTimeout` does not overflow `u64`. -/
theorem survivors_newPoint (hpt : 1 ≤ cfg.priceTimeout) (hnow : env.now + cfg.priceTimeout < 2 ^ 64)
    {x : AccountId × FixedI64} {rest : List (AccountId × FixedI64)} (hx : x.1 ∉ rest.map Prod.fst) :
    survivors cfg env rest [newPoint env x.1 x.2] = [newPoint env x.1 x.2] :=
  List.filter_eq_self.mpr (by
    simp only [List.mem_singleton]; rintro _ rfl; simp [newPoint, hx, Nat.mod_eq_of_lt hnow]; omega)

omit [DecidableEq AssetId] in
theorem survivors_append (subs : List (AccountId × FixedI64)) (a b : List (PricePoint AccountId)) :
    survivors cfg env subs (a ++ b) = survivors cfg env subs a ++ survivors cfg env subs b :=
  List.filter_append ..

omit [DecidableEq AssetId] in
theorem survivors_perm (subs : List (AccountId × FixedI64)) {a b : List (PricePoint AccountId)}
    (h : a.Perm b) : (survivors cfg env subs a).Perm (survivors cfg env subs b) :=
  h.filter _

omit [DecidableEq AssetId] in
theorem survivors_congr {subs subs' : List (AccountId × FixedI64)} (h : subs.Perm subs')
    (points : List (PricePoint AccountId)) :
    survivors cfg env subs points = survivors cfg env subs' points := by
  simp only [survivors, (h.map Prod.fst).mem_iff]

/-- **One submission**: a valid call without a point of the current block is accepted and
    writes `updatedPriceData`. -/
theorem setPrice_signed_ok {who : AccountId} {price : FixedI64} {s : Storage AccountId AssetId}
    (hval : validateParams cfg env who asset price env.blockNumber = .ok ())
    (hfresh : ∀ pp ∈ (s.entry asset).pricePoints, pp.accountId = who →
      pp.blockNumber ≠ env.blockNumber) :
    ∃ eff, setPrice cfg env (.signed who) asset price s =
      .ok (s.insert asset (updatedPriceData cfg env who price (s.entry asset)), eff) := by
  have hnd : ¬ IsDuplicate env (s.entry asset) who :=
    fun ⟨_, pp, hpp, hwho, hb⟩ => hfresh pp hpp hwho hb
  exact ⟨_, by simp only [setPrice, submitPrice, hval, setPriceInner_eq, if_neg hnd]; rfl⟩

/-- What a block of submissions leaves in the entry, against the prior point list. -/
structure BlockPost (subs : List (AccountId × FixedI64)) (points : List (PricePoint AccountId))
    (pd : PriceData AccountId) : Prop where
  sorted : PricesSorted pd.pricePoints
  perm : pd.pricePoints.Perm (survivors cfg env subs points ++ subs.map (fun e => newPoint env e.1 e.2))
  median : ∃ h, pd.price = calcMedianPrice pd.pricePoints h

/-- The hypotheses on a block of submissions from `s`: distinct feeders, each passing
    `validate_params` and holding no point of the current block. -/
structure ValidBlock (subs : List (AccountId × FixedI64)) (s : Storage AccountId AssetId) :
    Prop where
  nodup : (subs.map Prod.fst).Nodup
  valid : ∀ e ∈ subs, validateParams cfg env e.1 asset e.2 env.blockNumber = .ok ()
  fresh : ∀ e ∈ subs, ∀ pp ∈ (s.entry asset).pricePoints, pp.accountId = e.1 →
    pp.blockNumber ≠ env.blockNumber

omit [DecidableEq AccountId] in
theorem ValidBlock.perm {subs subs' : List (AccountId × FixedI64)} {s : Storage AccountId AssetId}
    (h : ValidBlock cfg env asset subs s) (hp : subs'.Perm subs) : ValidBlock cfg env asset subs' s :=
  ⟨(hp.map Prod.fst).nodup_iff.mpr h.nodup, fun e he => h.valid e (hp.mem_iff.mp he),
    fun e he => h.fresh e (hp.mem_iff.mp he)⟩

/-- After the first submission, the rest of the block is still valid. -/
theorem ValidBlock.tail {x : AccountId × FixedI64}
    {rest : List (AccountId × FixedI64)} {s : Storage AccountId AssetId}
    (h : ValidBlock cfg env asset (x :: rest) s) :
    ValidBlock cfg env asset rest
      (s.insert asset (updatedPriceData cfg env x.1 x.2 (s.entry asset))) := by
  have hx : x.1 ∉ rest.map Prod.fst := (List.nodup_cons.mp h.nodup).1
  refine ⟨(List.nodup_cons.mp h.nodup).2, fun e he => h.valid e (List.mem_cons_of_mem _ he), ?_⟩
  intro e he pp hpp hwho
  rw [Storage.entry_insert_self, mem_updatedPriceData] at hpp
  rcases hpp with hpp | rfl
  · exact h.fresh e (List.mem_cons_of_mem _ he) pp ((mem_retained cfg env x.1).mp hpp).1 hwho
  · have hwho : x.1 = e.1 := hwho
    exact absurd (hwho ▸ List.mem_map_of_mem Prod.fst he) hx

/-- **The run lemma**: a non-empty valid block is accepted call by call, and leaves the
    surviving prior points and the new ones, sorted, with their median. -/
theorem applySubmissions_cons (hpt : 1 ≤ cfg.priceTimeout)
    (hnow : env.now + cfg.priceTimeout < 2 ^ 64) :
    ∀ (x : AccountId × FixedI64) (rest : List (AccountId × FixedI64)) (s : Storage AccountId AssetId),
      PricesSorted (s.entry asset).pricePoints → ValidBlock cfg env asset (x :: rest) s →
      ∃ s' pd', applySubmissions cfg env asset (x :: rest) s = .ok s' ∧
        s'.pricePoints asset = some pd' ∧
        BlockPost cfg env (x :: rest) (s.entry asset).pricePoints pd' := by
  intro x rest
  induction rest generalizing x with
  | nil =>
    intro s hs hv
    obtain ⟨eff, hstep⟩ := setPrice_signed_ok cfg env asset (hv.valid x (List.mem_singleton_self x))
      (hv.fresh x (List.mem_singleton_self x))
    refine ⟨s.insert asset (updatedPriceData cfg env x.1 x.2 (s.entry asset)), _,
      by simp only [applySubmissions, hstep], Storage.insert_self _ _ _,
      updatedPriceData_sorted cfg env _ _ hs, ?_, ?_⟩
    · rw [← retained_eq_survivors]; exact updatedPriceData_perm cfg env _ _ _
    · exact ⟨List.ne_nil_of_mem ((mem_updatedPriceData cfg env _ _).mpr (.inr rfl)),
        updatedPriceData_price cfg env _ _ _ _⟩
  | cons y rest ih =>
    intro s hs hv
    obtain ⟨eff, hstep⟩ := setPrice_signed_ok cfg env asset (hv.valid x (List.mem_cons_self x _))
      (hv.fresh x (List.mem_cons_self x _))
    have hs₁ := updatedPriceData_sorted cfg env x.1 x.2 hs
    obtain ⟨s', pd', hrun, hpd', hpost⟩ := ih y _ (by rwa [Storage.entry_insert_self])
      hv.tail
    refine ⟨s', pd', by simpa only [applySubmissions, hstep] using hrun, hpd', hpost.sorted, ?_,
      hpost.median⟩
    have hx : x.1 ∉ (y :: rest).map Prod.fst := (List.nodup_cons.mp hv.nodup).1
    have hsurv : (survivors cfg env (y :: rest)
        (updatedPriceData cfg env x.1 x.2 (s.entry asset)).pricePoints).Perm
        (survivors cfg env (x :: y :: rest) (s.entry asset).pricePoints ++ [newPoint env x.1 x.2]) := by
      have := survivors_perm cfg env (y :: rest) (updatedPriceData_perm cfg env x.1 x.2 (s.entry asset))
      rwa [survivors_append, survivors_newPoint cfg env hpt hnow hx,
        retained_eq_survivors cfg env x.1 x.2, survivors_survivors] at this
    have := hpost.perm
    rw [Storage.entry_insert_self] at this
    exact this.trans ((hsurv.append_right _).trans (by simp))

end Block

/-- `medianPrice` reads its list only, not the proof that it is non-empty. -/
theorem medianPrice_congr {xs ys : List FixedI64} (h : xs = ys) (hx : xs ≠ []) (hy : ys ≠ []) :
    medianPrice xs hx = medianPrice ys hy := by
  subst h; rfl

/-- The order of the inner values is antisymmetric on `FixedI64`. -/
theorem inner_le_antisymm :
    IsAntisymm FixedI64 (fun a b => a.inner ≤ b.inner) :=
  ⟨fun _ _ h₁ h₂ => FixedI64.ext (Int.le_antisymm h₁ h₂)⟩

omit [DecidableEq AccountId] in
/-- A point list sorted by price has its prices in the order `mergeSort` puts them. -/
theorem map_price_eq_mergeSort {points : List (PricePoint AccountId)} {prices : List FixedI64}
    (hs : PricesSorted points) (hp : (points.map (·.price)).Perm prices) :
    points.map (·.price) = prices.mergeSort (fun a b => decide (a.inner ≤ b.inner)) :=
  @List.eq_of_perm_of_sorted _ _ inner_le_antisymm _ _
    (hp.trans (List.mergeSort_perm _ _).symm) (List.pairwise_map.mpr hs)
    ((List.sorted_mergeSort (fun _ _ _ h₁ h₂ => by simp only [decide_eq_true_eq] at *; omega)
      (fun a b => by simp only [Bool.or_eq_true, decide_eq_true_eq]; omega) _).imp
      (of_decide_eq_true ·))

/-- **A block's submissions do not depend on their order.**  From a reachable storage, in a
    block whose time `now` leaves `now + PriceTimeout` inside `u64`, for every non-empty list of
    signed `set_price` calls of one asset by distinct feeders, each passing `validate_params`
    and holding no point of the current block, every ordering `l` of the list accepts every
    call and leaves an entry whose points are, as a multiset, the prior points still live and
    of no submitter plus the new ones, and whose price is the median of those prices sorted
    ascending. -/
theorem setPrice_block_order_independent {cfg : Config AccountId AssetId AssetData Public}
    (hpt : 1 ≤ cfg.priceTimeout) {s : Storage AccountId AssetId} (hs : Reachable cfg s)
    (env : Env AccountId AssetId) (hnow : env.now + cfg.priceTimeout < 2 ^ 64) (asset : AssetId)
    (subs : List (AccountId × FixedI64))
    (hne : subs ≠ []) (hnd : (subs.map Prod.fst).Nodup)
    (hval : ∀ e ∈ subs, validateParams cfg env e.1 asset e.2 env.blockNumber = .ok ())
    (hfresh : ∀ e ∈ subs, ∀ pp ∈ (s.entry asset).pricePoints, pp.accountId = e.1 →
      pp.blockNumber ≠ env.blockNumber)
    (l : List (AccountId × FixedI64)) (hl : l.Perm subs) :
    ∃ s' pd', applySubmissions cfg env asset l s = .ok s' ∧ s'.pricePoints asset = some pd' ∧
      pd'.pricePoints.Perm (survivors cfg env subs (s.entry asset).pricePoints ++
        subs.map (fun e => newPoint env e.1 e.2)) ∧
      ∃ h, pd'.price = medianPrice
        (((survivors cfg env subs (s.entry asset).pricePoints).map (·.price) ++
          subs.map Prod.snd).mergeSort (fun a b => decide (a.inner ≤ b.inner))) h := by
  obtain ⟨x, rest, rfl⟩ := List.exists_cons_of_ne_nil (fun h => hne (List.Perm.nil_eq (h ▸ hl)).symm)
  obtain ⟨s', pd', hrun, hpd', hpost⟩ := applySubmissions_cons cfg env asset hpt hnow x rest s
    ((hs.storageInv hpt).entry asset).sorted ((ValidBlock.mk hnd hval hfresh).perm cfg env asset hl)
  have hperm : pd'.pricePoints.Perm (survivors cfg env subs (s.entry asset).pricePoints ++
      subs.map (fun e => newPoint env e.1 e.2)) := by
    have := hpost.perm
    rw [survivors_congr cfg env hl] at this
    exact this.trans ((hl.map _).append_left _)
  have hprices := map_price_eq_mergeSort hpost.sorted (by simpa [Function.comp_def, newPoint] using hperm.map (·.price))
  obtain ⟨hne', hmed⟩ := hpost.median
  refine ⟨s', pd', hrun, hpd', hperm, ?_, hmed.trans (medianPrice_congr hprices _ _)⟩
  simpa [← hprices] using hne'

theorem setPrice_block_order_independent_mock :
    (Mock.env 1 0).now + Mock.config.priceTimeout < 2 ^ 64 ∧
    (∀ e ∈ [(1, one), (2, saturatingFromInteger 3)],
      validateParams Mock.config (Mock.env 1 0) e.1 Mock.EQ e.2 (Mock.env 1 0).blockNumber = .ok ()) ∧
    ∃ s' pd', applySubmissions Mock.config (Mock.env 1 0) Mock.EQ
        [(2, saturatingFromInteger 3), (1, one)] Mock.genesis = .ok s' ∧
      s'.pricePoints Mock.EQ = some pd' ∧
      pd'.pricePoints.Perm (survivors Mock.config (Mock.env 1 0) [(1, one), (2, saturatingFromInteger 3)]
          (Mock.genesis.entry Mock.EQ).pricePoints ++
        [(1, one), (2, saturatingFromInteger 3)].map (fun e => newPoint (Mock.env 1 0) e.1 e.2)) ∧
      ∃ h, pd'.price = medianPrice
        (((survivors Mock.config (Mock.env 1 0) [(1, one), (2, saturatingFromInteger 3)]
          (Mock.genesis.entry Mock.EQ).pricePoints).map (·.price) ++
          [(1, one), (2, saturatingFromInteger 3)].map Prod.snd).mergeSort
            (fun a b => decide (a.inner ≤ b.inner))) h :=
  have hval : ∀ e ∈ [(1, one), (2, saturatingFromInteger 3)],
      validateParams Mock.config (Mock.env 1 0) e.1 Mock.EQ e.2 (Mock.env 1 0).blockNumber = .ok () := by
    intro e he
    rcases List.mem_pair.mp he with rfl | rfl <;> rfl
  ⟨by decide, hval, setPrice_block_order_independent (by decide) (.genesis [] 0) (Mock.env 1 0) (by decide) Mock.EQ
    [(1, one), (2, saturatingFromInteger 3)] (by simp) (by decide) hval (by decide)
    [(2, saturatingFromInteger 3), (1, one)] (List.Perm.swap _ _ _)⟩

namespace Mock

/-- The mock runtime with `PriceTimeout = 5`. -/
def slowConfig : Config Nat Nat Unit Nat := { config with priceTimeout := 5 }

/-- Under `slowConfig`, feeder 1 submits `1` for `EQ` in block 1 at time 0, then feeder 2
    submits `3` in block 2 at time 4: the entry holds both points and the price `2`. -/
def slowState : Storage Nat Nat :=
  let s₀ := genesisBuild slowConfig [] 0
  let s₁ := (Outcome.ofResult s₀ (setPrice slowConfig (env 1 0) (.signed 1) EQ one s₀)).storage
  (Outcome.ofResult s₁
    (setPrice slowConfig (env 2 4) (.signed 2) EQ (saturatingFromInteger 3) s₁)).storage

end Mock

/-- **Where a block's aggregate is not the median of its live points and submissions.**  An
    empty block writes nothing: under `PriceTimeout = 5`, after feeder 1 submits `1` at time 0
    and feeder 2 submits `3` at time 4, a block at time 6 with no submission leaves the
    aggregate `2`, while the only prior point still live, feeder 2's, has median `3`.  And
    under `PriceTimeout = u64::MAX`, feeders 1 and 2 submitting `1` and `3` for `EQ` in block 1
    at time 5 leave the price of whoever comes last: `5 + u64::MAX` wraps to `4`, so each
    submission evicts the point the other made in the block. -/
theorem setPrice_block_stale_or_order_dependent :
    (Reachable Mock.slowConfig Mock.slowState ∧
      applySubmissions Mock.slowConfig (Mock.env 3 6) Mock.EQ [] Mock.slowState = .ok Mock.slowState ∧
      (Mock.slowState.pricePoints Mock.EQ).map (·.price) = some (saturatingFromInteger 2) ∧
      ((survivors Mock.slowConfig (Mock.env 3 6) [] (Mock.slowState.entry Mock.EQ).pricePoints).map
          (fun pp : PricePoint Nat => pp.price) ++ ([] : List (Nat × FixedI64)).map Prod.snd).mergeSort
            (fun a b => decide (a.inner ≤ b.inner)) = [saturatingFromInteger 3] ∧
      medianPrice [saturatingFromInteger 3] (List.cons_ne_nil _ _) ≠ saturatingFromInteger 2) ∧
    (1 ≤ Mock.maxTimeoutConfig.priceTimeout ∧ Reachable Mock.maxTimeoutConfig Mock.genesis ∧
      (∀ e ∈ [(1, one), (2, saturatingFromInteger 3)],
        validateParams Mock.maxTimeoutConfig (Mock.env 1 5) e.1 Mock.EQ e.2 1 = .ok ()) ∧
      (applySubmissions Mock.maxTimeoutConfig (Mock.env 1 5) Mock.EQ [(1, one), (2, saturatingFromInteger 3)]
        Mock.genesis).map (fun s => (s.pricePoints Mock.EQ).map (·.price)) =
          .ok (some (saturatingFromInteger 3)) ∧
      (applySubmissions Mock.maxTimeoutConfig (Mock.env 1 5) Mock.EQ [(2, saturatingFromInteger 3), (1, one)]
        Mock.genesis).map (fun s => (s.pricePoints Mock.EQ).map (·.price)) = .ok (some one)) :=
  ⟨⟨.step _ (.setPrice (.signed 2) Mock.EQ (saturatingFromInteger 3))
      (.step _ (.setPrice (.signed 1) Mock.EQ one) (.genesis [] 0) rfl) rfl,
    rfl, by decide, by
      rw [show (survivors Mock.slowConfig (Mock.env 3 6) [] (Mock.slowState.entry Mock.EQ).pricePoints).map
        (fun pp : PricePoint Nat => pp.price) ++ ([] : List (Nat × FixedI64)).map Prod.snd =
          [saturatingFromInteger 3] by decide]
      exact List.mergeSort_singleton _, by decide⟩,
    ⟨by decide, .genesis [] 0, fun e he => by rcases List.mem_pair.mp he with rfl | rfl <;> rfl, rfl, rfl⟩⟩

end EqOracle.Pallet
