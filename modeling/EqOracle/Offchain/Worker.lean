/-
  EqOracle.Offchain.Worker
  ────────────────────────
  **THE PRICE SCHEDULER OF `offchain_worker`.**

  Each tick of the oracle's offchain worker that acquires the lock runs one task on the node's
  persistent storage, where numbers are kept as decimal text (`set_counter` writes
  `value.to_string()`, `get_local_storage_val::<u32>` parses it back):

    * without a price periodicity (absent or unparsable), or with periodicity `0`, it does
      nothing;
    * otherwise it computes `counter + 1`, reading an absent or unparsable counter as `0`:
      equal to the periodicity, it stores `0` and runs `update_prices` with the stored source
      type (when there is one); above it (the periodicity was lowered), it stores `0`; below
      it, it stores `counter + 1`.

  Main results:
    * `workerTask_of_counter_lt`, `workerTask_of_le_counter`, `workerTask_of_no_periodicity` —
      what one tick does, by the counter's place against the periodicity;
    * `getCounter_runTicks` — with the periodicity fixed, the counter after `k` ticks, and the
      ticks that run `update_prices`;
    * `counterFits_runWithPeriodicities` — whatever periodicities are set between ticks, every
      stored counter is below its tick's periodicity, so `counter + 1` never overflows `u32`;
    * `offchainWorker_schedule` — the whole law, `SchedulerLaw`, from every storage whose
      counter can be incremented.
-/
import EqOracle.Offchain.Storage

namespace EqOracle.Offchain

open Text

/-! ## §1. The storage the scheduler reads. -/

/-- The keys of the persistent offchain storage the scheduler reads and writes. -/
structure WorkerStore where
  /-- `COUNTER`. -/
  counter : Option (List UInt8)
  /-- `PRICE_PERIODICITY`. -/
  pricePeriodicity : Option (List UInt8)
  /-- `RESOURCE_TYPE`: the price source to fetch with. -/
  sourceType : Option (List UInt8)

namespace WorkerStore

/-- `offchain_storage::get_counter`. -/
def getCounter (st : WorkerStore) : Option Nat := (getLocalStorageString st.counter).bind parseU32

/-- `offchain_storage::get_price_periodicity`. -/
def getPricePeriodicity (st : WorkerStore) : Option Nat :=
  (getLocalStorageString st.pricePeriodicity).bind parseU32

/-- `offchain_storage::get_source_type`. -/
def getSourceType (st : WorkerStore) : Option (List Char) := getLocalStorageString st.sourceType

/-- `offchain_storage::set_counter`: the decimal text of the value. -/
def setCounter (st : WorkerStore) (value : Nat) : WorkerStore :=
  { st with counter := some (asBytes (u32ToString value)) }

theorem getCounter_setCounter (st : WorkerStore) {value : Nat} (h : value ≤ u32Max) :
    (st.setCounter value).getCounter = some value := by
  have hascii : ∀ c ∈ u32ToString value, c.toNat < 0x80 := fun c hc => by
    have := mem_u32ToString hc
    simp only [Char.isDigit, Bool.and_eq_true, decide_eq_true_eq] at this
    exact Nat.lt_of_le_of_lt (show c.val.toNat ≤ 57 from this.2) (by decide)
  simp only [getCounter, setCounter, getLocalStorageString_asBytes hascii, Option.some_bind,
    parseU32_u32ToString h]

@[simp] theorem getPricePeriodicity_setCounter (st : WorkerStore) (value : Nat) :
    (st.setCounter value).getPricePeriodicity = st.getPricePeriodicity := rfl

@[simp] theorem getSourceType_setCounter (st : WorkerStore) (value : Nat) :
    (st.setCounter value).getSourceType = st.getSourceType := rfl

theorem getPricePeriodicity_le {st : WorkerStore} {p : Nat} (h : st.getPricePeriodicity = some p) :
    p ≤ u32Max :=
  let ⟨_, _, h⟩ := Option.bind_eq_some.mp h; parseUnsigned_le h

end WorkerStore

open WorkerStore

/-! ## §2. One tick. -/

/-- The task `offchain_worker` runs under the lock: the storage it leaves, and the source type
    it calls `update_prices` with, if it does.  `counter + 1` is the `u32` sum of the release
    runtime, which wraps (`counterFits_runWithPeriodicities` shows it never does). -/
def workerTask (st : WorkerStore) : WorkerStore × Option (List Char) :=
  match st.getPricePeriodicity with
  | none => (st, none)
  | some pricePeriodicity =>
    if pricePeriodicity < 1 then (st, none)
    else
      let counter := st.getCounter.getD 0
      let counterNext := (counter + 1) % 2 ^ 32
      if counterNext = pricePeriodicity then (st.setCounter 0, st.getSourceType)
      else if counterNext > pricePeriodicity then (st.setCounter 0, none)
      else (st.setCounter counterNext, none)

theorem workerTask_of_no_periodicity {st : WorkerStore}
    (h : st.getPricePeriodicity = none ∨ st.getPricePeriodicity = some 0) :
    workerTask st = (st, none) := by
  unfold workerTask
  rcases h with h | h <;> rw [h]
  rfl

/-- **A counter below the periodicity advances modulo it**, and the tick that wraps it to `0`
    runs `update_prices`. -/
theorem workerTask_of_counter_lt {st : WorkerStore} {p : Nat} (hp : st.getPricePeriodicity = some p)
    (hp1 : 1 ≤ p) (hc : st.getCounter.getD 0 < p) :
    workerTask st = (st.setCounter ((st.getCounter.getD 0 + 1) % p),
      if (st.getCounter.getD 0 + 1) % p = 0 then st.getSourceType else none) := by
  have hpmax := getPricePeriodicity_le hp
  have hwrap : (st.getCounter.getD 0 + 1) % 2 ^ 32 = st.getCounter.getD 0 + 1 :=
    Nat.mod_eq_of_lt (by unfold u32Max at hpmax; omega)
  unfold workerTask
  rw [hp]
  simp only [if_neg (show ¬ p < 1 by omega), hwrap]
  by_cases he : st.getCounter.getD 0 + 1 = p
  · rw [if_pos he, he, Nat.mod_self, if_pos rfl]
  · rw [if_neg he, if_neg (by omega), Nat.mod_eq_of_lt (by omega), if_neg (by omega)]

/-- **A counter at or above the periodicity is reset** without running `update_prices`. -/
theorem workerTask_of_le_counter {st : WorkerStore} {p : Nat} (hp : st.getPricePeriodicity = some p)
    (hp1 : 1 ≤ p) (hc : p ≤ st.getCounter.getD 0) (hmax : st.getCounter.getD 0 < 2 ^ 32 - 1) :
    workerTask st = (st.setCounter 0, none) := by
  have hwrap : (st.getCounter.getD 0 + 1) % 2 ^ 32 = st.getCounter.getD 0 + 1 :=
    Nat.mod_eq_of_lt (by omega)
  unfold workerTask
  rw [hp]
  simp only [if_neg (show ¬ p < 1 by omega), hwrap,
    if_neg (show st.getCounter.getD 0 + 1 ≠ p by omega),
    if_pos (show st.getCounter.getD 0 + 1 > p by omega)]

/-- **What a tick can do**: leave the storage, or store a counter. -/
theorem workerTask_cases (st : WorkerStore) :
    (workerTask st).1 = st ∨ ∃ v, (workerTask st).1 = st.setCounter v := by
  unfold workerTask
  split
  · exact .inl rfl
  · dsimp only
    split_ifs
    exacts [.inl rfl, .inr ⟨0, rfl⟩, .inr ⟨0, rfl⟩, .inr ⟨_, rfl⟩]

/-! ## §3. Ticks with a fixed periodicity. -/

/-- `k` ticks that acquire the lock, one after another. -/
def runTicks (st : WorkerStore) : Nat → WorkerStore
  | 0 => st
  | k + 1 => (workerTask (runTicks st k)).1

/-- Ticks change only the counter. -/
theorem runTicks_frame (st : WorkerStore) (k : Nat) :
    (runTicks st k).getPricePeriodicity = st.getPricePeriodicity ∧
      (runTicks st k).getSourceType = st.getSourceType := by
  induction k with
  | zero => exact ⟨rfl, rfl⟩
  | succ k ih =>
    rcases workerTask_cases (runTicks st k) with h | ⟨v, h⟩ <;>
      simp only [runTicks, h, getPricePeriodicity_setCounter, getSourceType_setCounter, ih, and_self]

/-- With the periodicity `p ≥ 1` fixed and a counter `c₀ < p`, the counter after `k` ticks
    reads `(c₀ + k) mod p`. -/
theorem counter_runTicks {st : WorkerStore} {p : Nat} (hp : st.getPricePeriodicity = some p)
    (hp1 : 1 ≤ p) (hc : st.getCounter.getD 0 < p) :
    ∀ k, (runTicks st k).getCounter.getD 0 = (st.getCounter.getD 0 + k) % p
  | 0 => (Nat.mod_eq_of_lt hc).symm
  | k + 1 => by
    have ih := counter_runTicks hp hp1 hc k
    have hmax := getPricePeriodicity_le hp
    have hlt : (runTicks st k).getCounter.getD 0 < p := ih ▸ Nat.mod_lt _ (by omega)
    have hnext := Nat.mod_add_mod (st.getCounter.getD 0 + k) p 1
    show (workerTask (runTicks st k)).1.getCounter.getD 0 = _
    rw [workerTask_of_counter_lt ((runTicks_frame st k).1.trans hp) hp1 hlt, ih, hnext,
      getCounter_setCounter _ (Nat.le_trans (Nat.le_of_lt (Nat.mod_lt _ (by omega))) hmax)]
    rfl

/-- **The run lemma.**  With the periodicity `p ≥ 1` fixed and a counter `c₀ < p`, after tick
    `k + 1` the counter is `(c₀ + k + 1) mod p`, and tick `k + 1` runs `update_prices` exactly
    when that is `0`. -/
theorem getCounter_runTicks {st : WorkerStore} {p : Nat} (hp : st.getPricePeriodicity = some p)
    (hp1 : 1 ≤ p) (hc : st.getCounter.getD 0 < p) (k : Nat) :
    (runTicks st (k + 1)).getCounter = some ((st.getCounter.getD 0 + k + 1) % p) ∧
      (workerTask (runTicks st k)).2 =
        if (st.getCounter.getD 0 + k + 1) % p = 0 then st.getSourceType else none := by
  have hk := counter_runTicks hp hp1 hc k
  have hmax := getPricePeriodicity_le hp
  have hnext := Nat.mod_add_mod (st.getCounter.getD 0 + k) p 1
  have htick := workerTask_of_counter_lt ((runTicks_frame st k).1.trans hp) hp1
    (hk ▸ Nat.mod_lt _ (by omega))
  rw [hk, hnext, (runTicks_frame st k).2] at htick
  refine ⟨?_, by rw [htick]⟩
  show (workerTask (runTicks st k)).1.getCounter = _
  rw [htick]
  exact getCounter_setCounter _ (Nat.le_trans (Nat.le_of_lt (Nat.mod_lt _ (by omega))) hmax)

/-- The first tick, then the others. -/
theorem runTicks_succ' (st : WorkerStore) : ∀ k, runTicks st (k + 1) = runTicks (workerTask st).1 k
  | 0 => rfl
  | k + 1 => by
    show (workerTask (runTicks st (k + 1))).1 = _
    rw [runTicks_succ' st k]
    rfl

/-- Two residues below `p` add up to a multiple of `p` exactly when they add up to `0` or `p`. -/
theorem add_mod_eq_zero_iff {r i p : Nat} (hr : r < p) (hi : i < p) :
    (r + i) % p = 0 ↔ r + i = 0 ∨ r + i = p := by
  by_cases hlt : r + i < p
  · rw [Nat.mod_eq_of_lt hlt]; omega
  · rw [Nat.mod_eq_sub_mod (by omega), Nat.mod_eq_of_lt (by omega)]; omega

/-- Among `p` consecutive numbers exactly one is a multiple of `p`. -/
theorem existsUnique_mod_eq_zero (a : Nat) {p : Nat} (hp : 0 < p) :
    ∃! i, i < p ∧ (a + i) % p = 0 := by
  have hr := Nat.mod_lt a hp
  have key : ∀ i, i < p → ((a + i) % p = 0 ↔ a % p + i = 0 ∨ a % p + i = p) := fun i hi => by
    rw [Nat.add_mod, Nat.mod_eq_of_lt hi]; exact add_mod_eq_zero_iff hr hi
  have hj : (a % p = 0 ∧ (p - a % p) % p = 0) ∨ (0 < a % p ∧ (p - a % p) % p = p - a % p) := by
    by_cases h0 : a % p = 0
    · exact .inl ⟨h0, by rw [h0, Nat.sub_zero, Nat.mod_self]⟩
    · exact .inr ⟨by omega, Nat.mod_eq_of_lt (by omega)⟩
  refine ⟨(p - a % p) % p, ⟨Nat.mod_lt _ hp, (key _ (Nat.mod_lt _ hp)).mpr (by omega)⟩,
    fun i ⟨hi, hai⟩ => ?_⟩
  have := (key i hi).mp hai
  omega

/-! ## §4. Periodicities changed between ticks. -/

/-- Ticks that acquire the lock, the node's operator setting the periodicity to `raw` before
    each one. -/
def runWithPeriodicities (st : WorkerStore) : List (Option (List UInt8)) → WorkerStore
  | [] => st
  | raw :: raws => runWithPeriodicities (workerTask { st with pricePeriodicity := raw }).1 raws

theorem runWithPeriodicities_append_singleton (st : WorkerStore) (pre : List (Option (List UInt8)))
    (raw : Option (List UInt8)) :
    runWithPeriodicities st (pre ++ [raw]) =
      (workerTask { runWithPeriodicities st pre with pricePeriodicity := raw }).1 := by
  induction pre generalizing st with
  | nil => rfl
  | cons r pre ih => exact ih _

/-- The stored counter can be incremented without overflowing `u32`. -/
def CounterFits (st : WorkerStore) : Prop := st.getCounter.getD 0 + 1 < 2 ^ 32

/-- **One tick keeps the counter fitting**, and a tick with a periodicity `p ≥ 1` stores a
    counter below `p`. -/
theorem workerTask_counterFits {st : WorkerStore} (h : CounterFits st) :
    CounterFits (workerTask st).1 ∧ ∀ p, st.getPricePeriodicity = some p → 1 ≤ p →
      ∃ v, (workerTask st).1.getCounter = some v ∧ v < p := by
  have hstore : ∀ p, st.getPricePeriodicity = some p → 1 ≤ p →
      ∃ v, (workerTask st).1.getCounter = some v ∧ v < p := by
    intro p hp hp1
    have hmax := getPricePeriodicity_le hp
    by_cases hc : st.getCounter.getD 0 < p
    · rw [workerTask_of_counter_lt hp hp1 hc]
      have := Nat.mod_lt (st.getCounter.getD 0 + 1) (show 0 < p by omega)
      exact ⟨_, getCounter_setCounter _ (by omega), this⟩
    · rw [workerTask_of_le_counter hp hp1 (by omega) (by unfold CounterFits at h; omega)]
      exact ⟨0, getCounter_setCounter _ (by decide), by omega⟩
  refine ⟨?_, hstore⟩
  cases hp : st.getPricePeriodicity with
  | none => rwa [workerTask_of_no_periodicity (.inl hp)]
  | some p =>
    by_cases hp1 : 1 ≤ p
    · obtain ⟨v, hv, hvp⟩ := hstore p hp hp1
      have hmax := getPricePeriodicity_le hp
      simp only [CounterFits, hv, Option.getD_some]
      unfold u32Max at hmax; omega
    · rwa [workerTask_of_no_periodicity (.inr (by rw [hp]; congr; omega))]

/-- **The run lemma, periodicities changing**: every state of the run has a counter that fits. -/
theorem counterFits_runWithPeriodicities {st : WorkerStore} (h : CounterFits st) :
    ∀ raws, CounterFits (runWithPeriodicities st raws)
  | [] => h
  | raw :: raws => counterFits_runWithPeriodicities
      (@workerTask_counterFits { st with pricePeriodicity := raw } h).1 raws

/-! ## §5. The scheduler's law. -/

/-- What the scheduler does from a storage `st`, tick by tick. -/
structure SchedulerLaw (st : WorkerStore) : Prop where
  /-- Without a periodicity, or with periodicity `0`, a tick changes nothing and runs nothing. -/
  idle : st.getPricePeriodicity = none ∨ st.getPricePeriodicity = some 0 → workerTask st = (st, none)
  /-- With a fixed periodicity `p ≥ 1` and a counter `c₀ < p`: after tick `k + 1` the counter
      is `(c₀ + k + 1) mod p`, and that tick runs `update_prices` exactly when it is `0`. -/
  below : ∀ p, st.getPricePeriodicity = some p → 1 ≤ p → st.getCounter.getD 0 < p →
    ∀ k, (runTicks st (k + 1)).getCounter = some ((st.getCounter.getD 0 + k + 1) % p) ∧
      (workerTask (runTicks st k)).2 =
        if (st.getCounter.getD 0 + k + 1) % p = 0 then st.getSourceType else none
  /-- Hence, with a source type stored, exactly one of any `p` consecutive ticks fetches. -/
  once : ∀ p, st.getPricePeriodicity = some p → 1 ≤ p → st.getCounter.getD 0 < p →
    st.getSourceType.isSome → ∀ j, ∃! i, i < p ∧ ((workerTask (runTicks st (j + i))).2).isSome
  /-- With a counter `c₀ ≥ p`, the first tick stores `0` without fetching, and the others go
      on as from `c₀ = 0`. -/
  above : ∀ p, st.getPricePeriodicity = some p → 1 ≤ p → p ≤ st.getCounter.getD 0 →
    (workerTask st).2 = none ∧ (runTicks st 1).getCounter = some 0 ∧
      ∀ k, (runTicks st (k + 2)).getCounter = some ((k + 1) % p) ∧
        (workerTask (runTicks st (k + 1))).2 = if (k + 1) % p = 0 then st.getSourceType else none
  /-- Whatever periodicities are set between ticks, `counter + 1` never overflows... -/
  fits : ∀ raws, CounterFits (runWithPeriodicities st raws)
  /-- ...and every counter a tick stores is below that tick's periodicity. -/
  stored : ∀ pre raw p,
    ({ runWithPeriodicities st pre with pricePeriodicity := raw } : WorkerStore).getPricePeriodicity
      = some p → 1 ≤ p →
    ∃ v, (runWithPeriodicities st (pre ++ [raw])).getCounter = some v ∧ v < p

/-- **The price scheduler of `offchain_worker`.**  From every storage whose counter can be
    incremented (`c₀ < 2³² − 1`, an absent or unparsable counter reading as `0`), the
    scheduler follows `SchedulerLaw`. -/
theorem offchainWorker_schedule (st : WorkerStore) (h : CounterFits st) : SchedulerLaw st where
  idle := workerTask_of_no_periodicity
  below := fun _ hp hp1 hc => getCounter_runTicks hp hp1 hc
  once := fun p hp hp1 hc hsrc j => by
    obtain ⟨i, ⟨hi, hmod⟩, huniq⟩ := @existsUnique_mod_eq_zero (st.getCounter.getD 0 + j + 1) p
      (by omega)
    have hfire : ∀ i, ((workerTask (runTicks st (j + i))).2).isSome ↔
        (st.getCounter.getD 0 + j + 1 + i) % p = 0 := fun i => by
      rw [(getCounter_runTicks hp hp1 hc (j + i)).2, show st.getCounter.getD 0 + (j + i) + 1 =
        st.getCounter.getD 0 + j + 1 + i by omega]
      split
      · rename_i h0; exact iff_of_true hsrc h0
      · rename_i h0; exact iff_of_false (by simp) h0
    exact ⟨i, ⟨hi, (hfire i).mpr hmod⟩, fun i' ⟨hi', h'⟩ => huniq i' ⟨hi', (hfire i').mp h'⟩⟩
  above := fun p hp hp1 hc => by
    have htick := workerTask_of_le_counter hp hp1 hc (by unfold CounterFits at h; omega)
    have h1 : (runTicks st 1).getCounter = some 0 := by
      show (workerTask st).1.getCounter = _
      rw [htick]; exact getCounter_setCounter _ (by decide)
    have hp' : (runTicks st 1).getPricePeriodicity = some p := (runTicks_frame st 1).1.trans hp
    refine ⟨by rw [htick], h1, fun k => ?_⟩
    have := getCounter_runTicks hp' hp1 (by rw [h1]; exact hp1) k
    rw [h1, Option.getD_some, Nat.zero_add, (runTicks_frame st 1).2] at this
    simpa only [show k + 2 = k + 1 + 1 from rfl, runTicks_succ'] using this
  fits := counterFits_runWithPeriodicities h
  stored := fun pre raw p hp hp1 => by
    rw [runWithPeriodicities_append_singleton]
    exact (@workerTask_counterFits { runWithPeriodicities st pre with pricePeriodicity := raw }
      (counterFits_runWithPeriodicities h pre)).2 p hp hp1

/-- A node with periodicity `3`, a source type, and no counter yet: its first tick does not
    fetch, its third fetches with the stored source type `custom`. -/
theorem offchainWorker_schedule_every_third :
    CounterFits ⟨none, some (asBytes "3".toList), some (asBytes "custom".toList)⟩ ∧
      SchedulerLaw ⟨none, some (asBytes "3".toList), some (asBytes "custom".toList)⟩ ∧
      (workerTask (runTicks ⟨none, some (asBytes "3".toList), some (asBytes "custom".toList)⟩ 0)).2 =
        none ∧
      (workerTask (runTicks ⟨none, some (asBytes "3".toList), some (asBytes "custom".toList)⟩ 2)).2 =
        some "custom".toList :=
  have h : CounterFits ⟨none, some (asBytes "3".toList), some (asBytes "custom".toList)⟩ := by
    unfold CounterFits; decide
  have hlaw := offchainWorker_schedule _ h
  have htick := fun k => (hlaw.below 3 (by decide) (by decide) (by decide) k).2
  ⟨h, hlaw, by rw [htick 0]; decide, by rw [htick 2]; decide⟩

end EqOracle.Offchain
