/-
  EqOracle.Pallet.Duplicate
  ─────────────────────────
  **ONE ACCEPTED SUBMISSION PER FEEDER, ASSET AND BLOCK.**

  `set_price_inner` rejects a submission with `PriceAlreadyAdded` when the entry was written
  in the current block and holds a point of the submitter from that block (`HeldIn`).  Over a
  whole run this local test means something about the history: for a call that passes
  `validate_params`, it fails as a duplicate exactly when an earlier call by the same feeder
  for the same asset was accepted in the same block and no `filter_prices_from` of that feeder
  ran since (`AcceptedSince`).  This needs block numbers that never decrease and one timestamp
  per block (`Env.Precedes`): the feeder's point must outlive the other feeders' writes in the
  block, which evict by time.

  A run (`Run`) records each dispatched call with its environment and result.  `DupInv` is
  the invariant that links the entry of one asset to the history, `Run.dupInv` proves it of
  every run from the step inversion `dispatch_cases`, and `setPrice_duplicate_iff_accepted`
  reads the law off it.  The law needs `now + PriceTimeout` to stay inside `u64`: the sum
  wraps in a release build, and at `PriceTimeout = u64::MAX` another feeder's write evicts the
  submitter's point of the block, which lifts the check
  (`setPrice_duplicate_accepted_after_wrap`).
-/
import EqOracle.Pallet.Invariant
import EqOracle.Pallet.Filter

namespace EqOracle.Pallet

open FixedI64

variable {AccountId AssetId AssetData Public : Type} [DecidableEq AccountId] [DecidableEq AssetId]

/-! ## §1. Runs. -/

/-- One dispatched call: its environment, the call, and its result. -/
structure Dispatched (AccountId AssetId Public : Type) where
  env : Env AccountId AssetId
  call : Call AccountId AssetId Public
  result : Except DispatchError Unit

/-- The calls dispatched from a genesis build, oldest first, and the storage they leave. -/
inductive Run (cfg : Config AccountId AssetId AssetData Public) :
    List (Dispatched AccountId AssetId Public) → Storage AccountId AssetId → Prop
  | genesis (prices : List (AssetId × FixedI64)) (updateDate : Nat) :
      Run cfg [] (genesisBuild cfg prices updateDate)
  | step {hist : List (Dispatched AccountId AssetId Public)} {s : Storage AccountId AssetId}
      {o : Outcome AccountId AssetId} (env : Env AccountId AssetId)
      (call : Call AccountId AssetId Public) :
      Run cfg hist s → dispatch cfg env s call = some o → Run cfg (hist ++ [⟨env, call, o.result⟩]) o.storage

/-- `e₂` comes no earlier than `e₁`: a block number no smaller, the same time in the same
    block. -/
def Env.Precedes (e₁ e₂ : Env AccountId AssetId) : Prop :=
  e₁.blockNumber ≤ e₂.blockNumber ∧ (e₁.blockNumber = e₂.blockNumber → e₁.now = e₂.now)

/-- The duplicate condition of `set_price_inner` in block `b`. -/
def HeldIn (pd : PriceData AccountId) (who : AccountId) (b : Nat) : Prop :=
  pd.blockNumber = b ∧ ∃ pp ∈ pd.pricePoints, pp.accountId = who ∧ pp.blockNumber = b

/-! ## §2. Accepted since the last removal. -/

section Accepted

variable (cfg : Config AccountId AssetId AssetData Public) (who : AccountId) (asset : AssetId)

/-- An earlier call by `who` for `asset`, in an environment satisfying `p`, was accepted, and
    no `filter_prices_from(who)` ran after it. -/
def AcceptedSince (hist : List (Dispatched AccountId AssetId Public))
    (p : Env AccountId AssetId → Prop) : Prop :=
  ∃ pre d post, hist = pre ++ d :: post ∧ d.result = .ok () ∧ p d.env ∧
    (∃ price vb, d.call.submission cfg d.env = some (who, asset, price, vb)) ∧
    ∀ d' ∈ post, d'.call ≠ .filterPricesFrom who

variable {cfg who asset} {hist : List (Dispatched AccountId AssetId Public)}
  {p q : Env AccountId AssetId → Prop} {d : Dispatched AccountId AssetId Public}

omit [DecidableEq AccountId] [DecidableEq AssetId] in
theorem AcceptedSince.mono (h : AcceptedSince cfg who asset hist p) (hpq : ∀ e, p e → q e) :
    AcceptedSince cfg who asset hist q :=
  let ⟨pre, d, post, heq, hr, hp, hs, hpost⟩ := h
  ⟨pre, d, post, heq, hr, hpq _ hp, hs, hpost⟩

omit [DecidableEq AccountId] [DecidableEq AssetId] in
theorem AcceptedSince.exists_mem (h : AcceptedSince cfg who asset hist p) :
    ∃ d ∈ hist, p d.env :=
  let ⟨_, d, _, heq, _, hp, _⟩ := h
  ⟨d, by simp [heq], hp⟩

omit [DecidableEq AccountId] [DecidableEq AssetId] in
/-- A call that is not `filter_prices_from(who)` keeps an acceptance. -/
theorem AcceptedSince.snoc (h : AcceptedSince cfg who asset hist p)
    (hd : d.call ≠ .filterPricesFrom who) : AcceptedSince cfg who asset (hist ++ [d]) p :=
  let ⟨pre, e, post, heq, hr, hp, hs, hpost⟩ := h
  ⟨pre, e, post ++ [d], by simp [heq], hr, hp, hs, fun d' hd' => by
    rcases List.mem_append.mp hd' with hd' | hd'
    · exact hpost d' hd'
    · rwa [List.mem_singleton.mp hd']⟩

omit [DecidableEq AccountId] [DecidableEq AssetId] in
theorem AcceptedSince.last (hr : d.result = .ok ()) (hp : p d.env)
    (hs : ∃ price vb, d.call.submission cfg d.env = some (who, asset, price, vb)) :
    AcceptedSince cfg who asset (hist ++ [d]) p :=
  ⟨hist, d, [], rfl, hr, hp, hs, by simp⟩

omit [DecidableEq AccountId] [DecidableEq AssetId] in
/-- An acceptance after one more call was there before it, or is that call. -/
theorem AcceptedSince.of_snoc (h : AcceptedSince cfg who asset (hist ++ [d]) p) :
    (AcceptedSince cfg who asset hist p ∧ d.call ≠ .filterPricesFrom who) ∨
      (d.result = .ok () ∧ p d.env ∧
        ∃ price vb, d.call.submission cfg d.env = some (who, asset, price, vb)) := by
  obtain ⟨pre, e, post, heq, hr, hp, hs, hpost⟩ := h
  rcases List.eq_nil_or_concat' post with rfl | ⟨post, x, rfl⟩
  · obtain ⟨-, he⟩ := List.append_inj' heq rfl
    cases he
    exact .inr ⟨hr, hp, hs⟩
  · rw [show pre ++ e :: (post ++ [x]) = (pre ++ e :: post) ++ [x] by simp] at heq
    obtain ⟨hh, hx⟩ := List.append_inj' heq rfl
    cases hx
    exact .inl ⟨⟨pre, e, post, hh, hr, hp, hs, fun d' hd' => hpost d' (by simp [hd'])⟩,
      hpost _ (by simp)⟩

end Accepted

/-! ## §3. What one call can do. -/

section Step

variable (cfg : Config AccountId AssetId AssetData Public) (env : Env AccountId AssetId)

omit [DecidableEq AccountId] [DecidableEq AssetId] in
theorem Call.isSubmit_of_submission {call : Call AccountId AssetId Public}
    {x : AccountId × AssetId × FixedI64 × Nat} (h : call.submission cfg env = some x) :
    call.IsSubmit := by
  cases call with
  | setPrice | setPriceUnsigned => trivial
  | onInitialize | filterPricesFrom => cases h

/-- An accepted submission writes `updatedPriceData`. -/
theorem submitPrice_storage {who : AccountId} {asset : AssetId} {price : FixedI64} {vb : Nat}
    {s : Storage AccountId AssetId}
    {r : Storage AccountId AssetId × List (Effect AccountId AssetId)}
    (h : submitPrice cfg env who asset price vb s = .ok r) :
    r.1 = s.insert asset (updatedPriceData cfg env who price (s.entry asset)) := by
  unfold submitPrice at h
  split at h
  · cases h
  · rw [setPriceInner_eq] at h
    split at h
    · cases h
    · cases h; rfl

/-- **The step inversion.**  A dispatched call fails and leaves the storage; or is a
    submission that passes validation and the duplicate check and writes `updatedPriceData`;
    or is `on_initialize`; or is `filter_prices_from`. -/
theorem dispatch_cases {s : Storage AccountId AssetId} {call : Call AccountId AssetId Public}
    {o : Outcome AccountId AssetId} (h : dispatch cfg env s call = some o) :
    (∃ e, o.result = .error e ∧ o.storage = s) ∨
    (∃ who asset price vb, call.submission cfg env = some (who, asset, price, vb) ∧
      o.result = .ok () ∧
      o.storage = s.insert asset (updatedPriceData cfg env who price (s.entry asset))) ∨
    (call = .onInitialize ∧ ∃ r, onInitialize cfg env s = some r ∧ o.storage = r.1) ∨
    (∃ w, call = .filterPricesFrom w ∧ o.result = .ok () ∧ o.storage = filterPricesFrom cfg w s) := by
  by_cases hsub : call.IsSubmit
  · rw [dispatch_submit cfg env s hsub] at h
    cases h
    cases hx : call.submission cfg env with
    | none => exact .inl ⟨_, rfl, rfl⟩
    | some x =>
      obtain ⟨who, asset, price, vb⟩ := x
      cases hr : submitPrice cfg env who asset price vb s with
      | error e => exact .inl ⟨e, by simp only [hr]; rfl, by simp only [hr]; rfl⟩
      | ok r =>
        exact .inr (.inl ⟨who, asset, price, vb, rfl, by simp only [hr]; rfl,
          by simp only [hr]; exact submitPrice_storage cfg env hr⟩)
  · cases call with
    | setPrice => exact absurd trivial hsub
    | setPriceUnsigned => exact absurd trivial hsub
    | onInitialize =>
      simp only [dispatch, Option.map_eq_some'] at h
      obtain ⟨r, hr, rfl⟩ := h
      exact .inr (.inr (.inl ⟨rfl, r, hr, rfl⟩))
    | filterPricesFrom w => cases h; exact .inr (.inr (.inr ⟨w, rfl, rfl, rfl⟩))

end Step

/-! ## §4. The invariant linking an entry to the history. -/

/-- For one feeder and one asset: each point of `who` in the entry comes from an accepted
    call in its block and at its time, not followed by `filter_prices_from(who)`; and an
    acceptance in block `b`, when no later call is in a later block, is still held. -/
structure DupInv (cfg : Config AccountId AssetId AssetData Public) (who : AccountId)
    (asset : AssetId) (hist : List (Dispatched AccountId AssetId Public))
    (s : Storage AccountId AssetId) : Prop where
  witnessed : ∀ pp ∈ (s.entry asset).pricePoints, pp.accountId = who →
    AcceptedSince cfg who asset hist (fun e => e.blockNumber = pp.blockNumber ∧ e.now = pp.timestamp)
  held : ∀ b, AcceptedSince cfg who asset hist (fun e => e.blockNumber = b) →
    (∀ d ∈ hist, d.env.blockNumber ≤ b) → HeldIn (s.entry asset) who b

omit [DecidableEq AccountId] in
/-- The genesis build stores no point. -/
theorem genesisBuild_pricePoints (cfg : Config AccountId AssetId AssetData Public)
    (prices : List (AssetId × FixedI64)) (updateDate : Nat) (asset : AssetId) :
    ((genesisBuild cfg prices updateDate).entry asset).pricePoints = [] := by
  have hins : ∀ (s : Storage AccountId AssetId) (a : AssetId) (v : PriceData AccountId),
      (∀ b, (s.entry b).pricePoints = []) → v.pricePoints = [] →
        ∀ b, ((s.insert a v).entry b).pricePoints = [] := by
    intro s a v hs hv b
    by_cases hb : b = a
    · subst hb; simpa using hv
    · simpa [hb] using hs b
  exact List.foldlRecOn _ _ _
    (List.foldlRecOn _ _ _ (fun _ => rfl) fun s hs a _ => hins s a _ hs rfl)
    (fun s hs e _ => hins s e.1 _ hs rfl) asset

section Preservation

variable {cfg : Config AccountId AssetId AssetData Public} {who : AccountId} {asset : AssetId}
  {hist : List (Dispatched AccountId AssetId Public)} {s s' : Storage AccountId AssetId}
  {d : Dispatched AccountId AssetId Public}

omit [DecidableEq AccountId] in
theorem DupInv.genesis (prices : List (AssetId × FixedI64)) (updateDate : Nat) :
    DupInv cfg who asset [] (genesisBuild cfg prices updateDate) := by
  refine ⟨fun pp hpp _ => ?_, fun b h _ => ?_⟩
  · rw [genesisBuild_pricePoints] at hpp
    cases hpp
  · obtain ⟨_, hd, _⟩ := h.exists_mem
    cases hd

omit [DecidableEq AccountId] [DecidableEq AssetId] in
/-- A call that leaves the entry, is not `filter_prices_from(who)` and is no accepted
    submission of `who` for `asset` keeps the invariant. -/
theorem DupInv.step_frame (hinv : DupInv cfg who asset hist s)
    (he : s'.entry asset = s.entry asset) (hcall : d.call ≠ .filterPricesFrom who)
    (hnew : ¬ (d.result = .ok () ∧
      ∃ price vb, d.call.submission cfg d.env = some (who, asset, price, vb))) :
    DupInv cfg who asset (hist ++ [d]) s' := by
  refine ⟨fun pp hpp hwho => ?_, fun b h hb => ?_⟩
  · rw [he] at hpp
    exact (hinv.witnessed pp hpp hwho).snoc hcall
  · rcases h.of_snoc with ⟨h, -⟩ | ⟨hr, -, hs⟩
    · rw [he]; exact hinv.held b h (fun x hx => hb x (by simp [hx]))
    · exact absurd ⟨hr, hs⟩ hnew

omit [DecidableEq AccountId] [DecidableEq AssetId] in
/-- The current call is in the block of any acceptance, when no call is in a later block. -/
theorem AcceptedSince.block_eq {env : Env AccountId AssetId} {b : Nat}
    (h : AcceptedSince cfg who asset (hist ++ [d]) (fun e => e.blockNumber = b))
    (hd : d.env = env) (hord : ∀ x ∈ hist, x.env.Precedes env)
    (hb : ∀ x ∈ hist ++ [d], x.env.blockNumber ≤ b) : env.blockNumber = b := by
  obtain ⟨x, hx, hxb⟩ := h.exists_mem
  have hle := hb d (by simp)
  rw [hd] at hle
  rcases List.mem_append.mp hx with hx | hx
  · have := (hord x hx).1; omega
  · rw [List.mem_singleton.mp hx, hd] at hxb; exact hxb

/-- **An accepted submission for the asset keeps the invariant**: the submitter's new point
    is witnessed by the call itself; another feeder's write in the same block keeps `who`'s
    point, which is from the same block and so at the same time, hence live when
    `now + PriceTimeout` does not wrap. -/
theorem DupInv.step_submit (hpt : 1 ≤ cfg.priceTimeout) (hinv : DupInv cfg who asset hist s)
    {env : Env AccountId AssetId} (hnow : env.now + cfg.priceTimeout < 2 ^ 64)
    {call : Call AccountId AssetId Public} {w : AccountId}
    {price : FixedI64} {vb : Nat} (hsub : call.submission cfg env = some (w, asset, price, vb))
    (hord : ∀ x ∈ hist, x.env.Precedes env) :
    DupInv cfg who asset (hist ++ [⟨env, call, .ok ()⟩])
      (s.insert asset (updatedPriceData cfg env w price (s.entry asset))) := by
  have hcall : call ≠ .filterPricesFrom who := by rintro rfl; cases hsub
  refine ⟨fun pp hpp hwho => ?_, fun b h hb => ?_⟩
  · rw [Storage.entry_insert_self, mem_updatedPriceData] at hpp
    rcases hpp with hpp | rfl
    · exact (hinv.witnessed pp ((mem_retained cfg env w).mp hpp).1 hwho).snoc hcall
    · have hw : w = who := hwho
      subst hw
      exact AcceptedSince.last rfl ⟨rfl, rfl⟩ ⟨price, vb, hsub⟩
  · have hbenv := h.block_eq rfl hord hb
    rw [Storage.entry_insert_self]
    refine ⟨hbenv, ?_⟩
    by_cases hw : w = who
    · exact ⟨newPoint env w price, (mem_updatedPriceData cfg env w price).mpr (.inr rfl), hw, hbenv⟩
    · rcases h.of_snoc with ⟨h, -⟩ | ⟨-, -, _, _, hs⟩
      · obtain ⟨-, pp, hpp, hwho, hppb⟩ := hinv.held b h (fun x hx => hb x (by simp [hx]))
        obtain ⟨x, hx, hxb, hxt⟩ := (hinv.witnessed pp hpp hwho).exists_mem
        have htime : pp.timestamp = env.now := hxt ▸ (hord x hx).2 (hxb.trans (hppb.trans hbenv.symm))
        exact ⟨pp, (mem_updatedPriceData cfg env w price).mpr (.inl ((mem_retained cfg env w).mpr
          ⟨hpp, by rw [htime, Nat.mod_eq_of_lt hnow]; omega, fun h => hw (h.symm.trans hwho)⟩)), hwho, hppb⟩
      · rw [hsub] at hs; cases hs; exact absurd rfl hw

theorem filterPricesFrom_entry (who : AccountId) {asset : AssetId}
    (hasset : asset ∈ cfg.assetGetter.getAssets) :
    (filterPricesFrom cfg who s).entry asset =
      (filterEntry who (s.pricePoints asset)).getD PriceData.default := by
  unfold Storage.entry; rw [filterPricesFrom_pricePoints, if_pos hasset]

/-- `filter_prices_from(who)` leaves no point of `who`, so nothing is held. -/
theorem DupInv.step_filter_self (hasset : asset ∈ cfg.assetGetter.getAssets)
    {env : Env AccountId AssetId} :
    DupInv cfg who asset (hist ++ [⟨env, .filterPricesFrom who, .ok ()⟩])
      (filterPricesFrom cfg who s) := by
  refine ⟨fun pp hpp hwho => ?_, fun b h _ => ?_⟩
  · rw [filterPricesFrom_entry who hasset] at hpp
    cases hx : filterEntry who (s.pricePoints asset) with
    | none => rw [hx] at hpp; cases hpp
    | some pd => rw [hx] at hpp; exact absurd hwho (filterEntry_clears who hx pp hpp)
  · rcases h.of_snoc with ⟨-, hc⟩ | ⟨-, -, _, _, hs⟩
    · exact absurd rfl hc
    · cases hs

/-- Another feeder's removal keeps `who`'s points, the entry's block number, and the entry. -/
theorem filterEntry_heldIn {w : AccountId} (hw : w ≠ who) {x : Option (PriceData AccountId)}
    {b : Nat} (h : HeldIn (x.getD PriceData.default) who b) :
    HeldIn ((filterEntry w x).getD PriceData.default) who b := by
  rcases x with _ | pd
  · obtain ⟨-, _, hpp, -⟩ := h; cases hpp
  · obtain ⟨hb, pp, hpp, hwho, hppb⟩ := h
    have hmem : pp ∈ withoutPointsOf w pd.pricePoints :=
      List.mem_filter.mpr ⟨hpp, by simpa [hwho] using Ne.symm hw⟩
    rw [filterEntry_some, dif_neg (List.ne_nil_of_mem hmem)]
    exact ⟨hb, pp, hmem, hwho, hppb⟩

theorem filterEntry_getD_subset (w : AccountId) (x : Option (PriceData AccountId)) :
    ((filterEntry w x).getD PriceData.default).pricePoints ⊆ (x.getD PriceData.default).pricePoints := by
  rcases x with _ | pd
  · exact List.Subset.refl _
  · rw [filterEntry_some]
    split
    · exact List.nil_subset _
    · exact List.filter_subset' _

theorem DupInv.step_filter_other (hinv : DupInv cfg who asset hist s)
    (hasset : asset ∈ cfg.assetGetter.getAssets) {env : Env AccountId AssetId} {w : AccountId}
    (hw : w ≠ who) :
    DupInv cfg who asset (hist ++ [⟨env, .filterPricesFrom w, .ok ()⟩])
      (filterPricesFrom cfg w s) := by
  have hcall : (Call.filterPricesFrom w : Call AccountId AssetId Public) ≠ .filterPricesFrom who :=
    fun h => hw (Call.filterPricesFrom.inj h)
  refine ⟨fun pp hpp hwho => ?_, fun b h hb => ?_⟩
  · rw [filterPricesFrom_entry w hasset] at hpp
    exact (hinv.witnessed pp (filterEntry_getD_subset w _ hpp) hwho).snoc hcall
  · rcases h.of_snoc with ⟨h, -⟩ | ⟨-, -, _, _, hs⟩
    · rw [filterPricesFrom_entry w hasset]
      exact filterEntry_heldIn hw (hinv.held b h (fun x hx => hb x (by simp [hx])))
    · cases hs

/-- **One call keeps the invariant**, for an asset of the registry without an overlay. -/
theorem DupInv.step (hpt : 1 ≤ cfg.priceTimeout) (hasset : asset ∈ cfg.assetGetter.getAssets)
    (hno : NoOverlay cfg asset) (hinv : DupInv cfg who asset hist s) {env : Env AccountId AssetId}
    (hnow : env.now + cfg.priceTimeout < 2 ^ 64)
    {call : Call AccountId AssetId Public} {o : Outcome AccountId AssetId}
    (hord : ∀ x ∈ hist, x.env.Precedes env) (h : dispatch cfg env s call = some o) :
    DupInv cfg who asset (hist ++ [⟨env, call, o.result⟩]) o.storage := by
  rcases dispatch_cases cfg env h with ⟨e, hr, hs⟩ | ⟨w, a, price, vb, hsub, hr, hs⟩ |
      ⟨rfl, r, hr, hs⟩ | ⟨w, rfl, hr, hs⟩
  · refine hinv.step_frame (by rw [hs]) (fun hc => ?_) (fun ⟨h, _⟩ => by rw [hr] at h; cases h)
    have hc : call = .filterPricesFrom who := hc
    subst hc
    simp only [dispatch, Option.some.injEq] at h
    subst h
    cases hr
  · rw [hr, hs]
    by_cases ha : a = asset
    · subst ha; exact hinv.step_submit hpt hnow hsub hord
    · exact hinv.step_frame (Storage.entry_insert_ne _ _ (Ne.symm ha))
        (by rintro rfl; cases hsub)
        (fun ⟨_, _, _, hs'⟩ => ha (by rw [hsub] at hs'; cases hs'; rfl))
  · refine hinv.step_frame (by unfold Storage.entry; rw [hs, onInitialize_frame cfg env hno hr])
      (fun h => by cases h) (fun ⟨_, _, _, hs'⟩ => by cases hs')
  · rw [hr, hs]
    by_cases hw : w = who
    · subst hw; exact DupInv.step_filter_self hasset
    · exact hinv.step_filter_other hasset hw

end Preservation

/-- **The run lemma**: every run in block order whose clock leaves `now + PriceTimeout` inside
    `u64` keeps the invariant. -/
theorem Run.dupInv {cfg : Config AccountId AssetId AssetData Public} {who : AccountId}
    {asset : AssetId} (hpt : 1 ≤ cfg.priceTimeout) (hasset : asset ∈ cfg.assetGetter.getAssets)
    (hno : NoOverlay cfg asset) {hist : List (Dispatched AccountId AssetId Public)}
    {s : Storage AccountId AssetId} (hrun : Run cfg hist s)
    (hord : (hist.map (·.env)).Pairwise Env.Precedes)
    (hfit : ∀ x ∈ hist, x.env.now + cfg.priceTimeout < 2 ^ 64) : DupInv cfg who asset hist s := by
  induction hrun with
  | genesis prices updateDate => exact DupInv.genesis prices updateDate
  | step env call _ hd ih =>
    simp only [List.map_append, List.map_cons, List.map_nil, List.pairwise_append,
      List.mem_singleton, List.mem_map] at hord
    simp only [List.mem_append, List.mem_singleton] at hfit
    exact (ih hord.1 fun x hx => hfit x (.inl hx)).step hpt hasset hno (hfit _ (.inr rfl))
      (fun x hx => hord.2.2 _ ⟨x, hx, rfl⟩ _ rfl) hd

/-! ## §5. The duplicate law. -/

/-- **A submission is a duplicate exactly when the feeder was already accepted in the
    block.**  In a run whose block numbers never decrease, whose time is constant within a
    block and whose clock `now` leaves `now + PriceTimeout` inside `u64` at every call, with
    `PriceTimeout ≥ 1`, a `set_price` or `set_price_unsigned` call by `who` for `asset` that
    passes `validate_params` fails with `PriceAlreadyAdded` if and only if an earlier call by
    `who` for `asset` was accepted in the current block and no `filter_prices_from(who)` ran
    after it. -/
theorem setPrice_duplicate_iff_accepted {cfg : Config AccountId AssetId AssetData Public}
    (hpt : 1 ≤ cfg.priceTimeout) {hist : List (Dispatched AccountId AssetId Public)}
    {s : Storage AccountId AssetId} (hrun : Run cfg hist s) (env : Env AccountId AssetId)
    (hord : (hist.map (·.env) ++ [env]).Pairwise Env.Precedes)
    (hfit : ∀ x ∈ hist, x.env.now + cfg.priceTimeout < 2 ^ 64)
    {call : Call AccountId AssetId Public} {who : AccountId} {asset : AssetId}
    {price : FixedI64} {vb : Nat} (hsub : call.submission cfg env = some (who, asset, price, vb))
    (hval : validateParams cfg env who asset price vb = .ok ()) :
    (dispatch cfg env s call).map (·.result) = some (.error (.module .priceAlreadyAdded)) ↔
      AcceptedSince cfg who asset hist (fun e => e.blockNumber = env.blockNumber) := by
  obtain ⟨d, hd, hsp, hco⟩ := validateParams_ok hval
  rw [List.pairwise_append] at hord
  have hinv : DupInv cfg who asset hist s := hrun.dupInv hpt
    (AssetGetter.mem_getAssets_of_getAssetData hd) ⟨d, hd, hsp, hco⟩ hord.1 hfit
  have hlater : ∀ x ∈ hist, x.env.blockNumber ≤ env.blockNumber := fun x hx =>
    (hord.2.2 _ (List.mem_map_of_mem _ hx) env (List.mem_singleton_self _)).1
  rw [dispatch_submit cfg env s (Call.isSubmit_of_submission cfg env hsub), hsub]
  simp only [Option.map_some', submitPrice, hval, setPriceInner_eq]
  by_cases hdup : IsDuplicate env (s.entry asset) who
  · rw [if_pos hdup]
    obtain ⟨-, pp, hpp, hwho, hppb⟩ := hdup
    exact iff_of_true rfl ((hinv.witnessed pp hpp hwho).mono fun e he => he.1.trans hppb)
  · rw [if_neg hdup]
    exact iff_of_false (by simp [Outcome.ofResult]) fun h => hdup (hinv.held _ h hlater)

theorem setPrice_duplicate_iff_accepted_mock :
    Run Mock.config [⟨Mock.env 1 0, .setPrice (.signed 1) Mock.EQ one, .ok ()⟩]
        (Mock.submit Mock.genesis 1 0 1 Mock.EQ one) ∧
      (([⟨Mock.env 1 0, .setPrice (.signed 1) Mock.EQ one, .ok ()⟩] :
        List (Dispatched Nat Nat Nat)).map (·.env) ++ [Mock.env 1 0]).Pairwise Env.Precedes ∧
      (∀ x ∈ ([⟨Mock.env 1 0, .setPrice (.signed 1) Mock.EQ one, .ok ()⟩] :
        List (Dispatched Nat Nat Nat)), x.env.now + Mock.config.priceTimeout < 2 ^ 64) ∧
      validateParams Mock.config (Mock.env 1 0) 1 Mock.EQ (saturatingFromInteger 2) 1 = .ok () ∧
      ((dispatch Mock.config (Mock.env 1 0) (Mock.submit Mock.genesis 1 0 1 Mock.EQ one)
          (.setPrice (.signed 1) Mock.EQ (saturatingFromInteger 2))).map (·.result) =
          some (.error (.module .priceAlreadyAdded)) ↔
        AcceptedSince Mock.config 1 Mock.EQ [⟨Mock.env 1 0, .setPrice (.signed 1) Mock.EQ one, .ok ()⟩]
          (fun e => e.blockNumber = (Mock.env 1 0).blockNumber)) :=
  have hrun : Run Mock.config [⟨Mock.env 1 0, .setPrice (.signed 1) Mock.EQ one, .ok ()⟩]
      (Mock.submit Mock.genesis 1 0 1 Mock.EQ one) := by
    have h := Run.step (Mock.env 1 0) (.setPrice (.signed 1) Mock.EQ one)
      (@Run.genesis Nat Nat Unit Nat _ _ Mock.config [] 0) rfl
    exact h
  have hord : (([⟨Mock.env 1 0, .setPrice (.signed 1) Mock.EQ one, .ok ()⟩] :
      List (Dispatched Nat Nat Nat)).map (·.env) ++ [Mock.env 1 0]).Pairwise Env.Precedes := by
    simp [Env.Precedes]
  have hfit : ∀ x ∈ ([⟨Mock.env 1 0, .setPrice (.signed 1) Mock.EQ one, .ok ()⟩] :
      List (Dispatched Nat Nat Nat)), x.env.now + Mock.config.priceTimeout < 2 ^ 64 := by
    simp [Mock.env, Mock.config]
  ⟨hrun, hord, hfit, rfl,
    setPrice_duplicate_iff_accepted (by decide) hrun (Mock.env 1 0) hord hfit rfl rfl⟩

/-- Under `maxTimeoutConfig`, feeders 1 and 2 submit `1` and `3` for `EQ` in block 1 at time 5. -/
def Mock.wrapHistory : List (Dispatched Nat Nat Nat) :=
  [⟨Mock.env 1 5, .setPrice (.signed 1) Mock.EQ one, .ok ()⟩,
    ⟨Mock.env 1 5, .setPrice (.signed 2) Mock.EQ (saturatingFromInteger 3), .ok ()⟩]

/-- **A wrap lifts the duplicate check.**  Under `PriceTimeout = u64::MAX`, feeder 2's accepted
    submission in block 1 at time 5 evicts feeder 1's point of the block (`5 + u64::MAX` wraps
    to `4`), so feeder 1's second submission in the block is accepted although its first one
    was and no `filter_prices_from(1)` ran. -/
theorem setPrice_duplicate_accepted_after_wrap :
    Run Mock.maxTimeoutConfig Mock.wrapHistory
        (Mock.submitMaxTimeout (Mock.submitMaxTimeout Mock.genesis 1 5 1 Mock.EQ one) 1 5 2 Mock.EQ
          (saturatingFromInteger 3)) ∧
      (Mock.wrapHistory.map (·.env) ++ [Mock.env 1 5]).Pairwise Env.Precedes ∧
      1 ≤ Mock.maxTimeoutConfig.priceTimeout ∧
      validateParams Mock.maxTimeoutConfig (Mock.env 1 5) 1 Mock.EQ (saturatingFromInteger 2) 1 = .ok () ∧
      AcceptedSince Mock.maxTimeoutConfig 1 Mock.EQ Mock.wrapHistory (fun e => e.blockNumber = 1) ∧
      (dispatch Mock.maxTimeoutConfig (Mock.env 1 5)
        (Mock.submitMaxTimeout (Mock.submitMaxTimeout Mock.genesis 1 5 1 Mock.EQ one) 1 5 2 Mock.EQ
          (saturatingFromInteger 3))
        (.setPrice (.signed 1) Mock.EQ (saturatingFromInteger 2))).map (·.result) = some (.ok ()) :=
  have hrun : Run Mock.maxTimeoutConfig Mock.wrapHistory
      (Mock.submitMaxTimeout (Mock.submitMaxTimeout Mock.genesis 1 5 1 Mock.EQ one) 1 5 2 Mock.EQ
        (saturatingFromInteger 3)) := by
    have h := Run.step (Mock.env 1 5) (.setPrice (.signed 2) Mock.EQ (saturatingFromInteger 3))
      (Run.step (Mock.env 1 5) (.setPrice (.signed 1) Mock.EQ one)
        (@Run.genesis Nat Nat Unit Nat _ _ Mock.maxTimeoutConfig [] 0) rfl) rfl
    exact h
  ⟨hrun, by simp [Mock.wrapHistory, Env.Precedes], by decide, rfl,
    ⟨[], _, [_], rfl, rfl, rfl, ⟨one, 1, rfl⟩, fun d hd => by
      rw [List.mem_singleton.mp hd]; exact fun h => Call.noConfusion h⟩, rfl⟩

end EqOracle.Pallet
