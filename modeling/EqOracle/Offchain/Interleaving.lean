/-
  EqOracle.Offchain.Interleaving
  ──────────────────────────────
  **OVERLAPPING INVOCATIONS OF `acquire_lock`.**

  Invocations `ι` of `acquire_lock` with one prefix run their atomic steps (`step`) on one
  storage in any order (`Reachable`).  The node's execution id does not change.

    * `firstLaunch_race` — on the first launch after a restart (the id stored under the
      prefix is not the node's execution id) the clear of one invocation lands after another
      one's acquisition: two invocations hold the lock at once.
    * `mutualExclusion_of_current` — when the stored id is already the node's execution id
      (or the node stores none), no invocation clears the flag and at most one holds the lock
      in every reachable state.
-/
import EqOracle.Offchain.Lock

namespace EqOracle.Offchain

variable {ι ExecId : Type} [DecidableEq ι] [DecidableEq ExecId]

/-! ## §1. Interleaved invocations. -/

/-- The storage and where each invocation is. -/
structure Sys (ι ExecId : Type) where
  store : LockStore ExecId
  pc : ι → Pc ExecId

/-- Invocation `i` takes its next atomic step, its task ending as `ending`. -/
def Sys.step (s : Sys ι ExecId) (i : ι) (ending : TaskEnd) : Sys ι ExecId :=
  ⟨(Offchain.step ending (s.pc i) s.store).2,
    Function.update s.pc i (Offchain.step ending (s.pc i) s.store).1⟩

/-- A schedule of steps, run in order. -/
def Sys.run (s : Sys ι ExecId) (sched : List (ι × TaskEnd)) : Sys ι ExecId :=
  sched.foldl (fun s e => s.step e.1 e.2) s

/-- The states reached from storage `st` with every invocation at its start, by steps in any
    order. -/
inductive Reachable (st : LockStore ExecId) : Sys ι ExecId → Prop
  | init : Reachable st ⟨st, fun _ => .start⟩
  | step {s : Sys ι ExecId} (i : ι) (ending : TaskEnd) :
      Reachable st s → Reachable st (s.step i ending)

theorem Reachable.run {st : LockStore ExecId} :
    ∀ (sched : List (ι × TaskEnd)) {s : Sys ι ExecId}, Reachable st s → Reachable st (s.run sched)
  | [], _, h => h
  | e :: sched, _, h => Reachable.run sched (h.step e.1 e.2)

/-- Between a successful compare-and-set of the lock flag and the final clear. -/
def Pc.Holds : Pc ExecId → Prop
  | .task | .release => True
  | _ => False

/-- At most one invocation holds the lock. -/
def MutualExclusion (s : Sys ι ExecId) : Prop :=
  ∀ i j, (s.pc i).Holds → (s.pc j).Holds → i = j

/-! ## §2. The first launch. -/

/-- The storage at a first launch: the node stored execution id `1`, nothing is stored under
    the prefix. -/
def firstLaunch : LockStore Nat := ⟨.ok 1, .absent, .absent⟩

/-- Invocation `false` stores the new id and is about to clear the flag; invocation `true`
    then finds the id current and takes the lock; `false` clears the flag and takes it too. -/
def firstLaunchRace : List (Bool × TaskEnd) :=
  [(false, .returns), (false, .returns), (true, .returns), (true, .returns), (true, .returns),
    (false, .returns), (false, .returns)]

/-- **Two invocations hold the lock at once** after the first-launch race. -/
theorem firstLaunch_race :
    Reachable firstLaunch ((⟨firstLaunch, fun _ => .start⟩ : Sys Bool Nat).run firstLaunchRace) ∧
      ((⟨firstLaunch, fun _ => .start⟩ : Sys Bool Nat).run firstLaunchRace).pc false = .task ∧
      ((⟨firstLaunch, fun _ => .start⟩ : Sys Bool Nat).run firstLaunchRace).pc true = .task :=
  ⟨Reachable.init.run firstLaunchRace, rfl, rfl⟩

/-! ## §3. Mutual exclusion once the id is current. -/

/-- The invariant when no clear can happen: the stored id is the node's, every invocation
    about to compare the id read the node's, none is about to clear, and the flag is `true`
    while one invocation, and only one, holds the lock. -/
structure SafeInv (s : Sys ι ExecId) : Prop where
  current : ∀ e, s.store.execId = .ok e → s.store.prefixId = .ok e
  casId : ∀ i e, s.pc i = .casId e → s.store.execId = .ok e
  noClear : ∀ i, s.pc i ≠ .clearLock
  locked : ∀ i, (s.pc i).Holds → s.store.lock = .ok true
  excl : MutualExclusion s

section Preservation

variable {s : Sys ι ExecId} {i : ι}

omit [DecidableEq ExecId] in
theorem update_apply_pc (p : Pc ExecId) (j : ι) :
    Function.update s.pc i p j = if j = i then p else s.pc j :=
  Function.update_apply _ _ _ _

omit [DecidableEq ExecId] in
/-- A step of `i` that keeps the storage, and moves `i` to a place that is no clear, reads
    the node's id if it is a compare, and holds the lock only if `i` held it. -/
theorem SafeInv.frame (h : SafeInv s) {p : Pc ExecId} (hc : p ≠ .clearLock)
    (he : ∀ e, p = .casId e → s.store.execId = .ok e) (hh : p.Holds → (s.pc i).Holds) :
    SafeInv ⟨s.store, Function.update s.pc i p⟩ := by
  have hpc := update_apply_pc (s := s) (i := i) p
  refine ⟨h.current, fun j e hj => ?_, fun j => ?_, fun j hj => ?_, fun j k hj hk => ?_⟩
  · simp only [hpc] at hj
    split at hj
    · exact he e hj
    · exact h.casId j e hj
  · simp only [hpc]; split
    · exact hc
    · exact h.noClear j
  · simp only [hpc] at hj
    split at hj
    · exact h.locked i (hh hj)
    · exact h.locked j hj
  · simp only [hpc] at hj hk
    have hold : ∀ x, (if x = i then p else s.pc x).Holds → (s.pc x).Holds := fun x hx => by
      split at hx
      · subst x; exact hh hx
      · exact hx
    exact h.excl j k (hold j hj) (hold k hk)

omit [DecidableEq ExecId] in
/-- Taking the lock: the flag was not `true`, so nobody held it. -/
theorem SafeInv.acquire (h : SafeInv s) (hl : s.store.lock ≠ .ok true) :
    SafeInv ⟨{ s.store with lock := .ok true }, Function.update s.pc i .task⟩ := by
  have hpc := update_apply_pc (s := s) (i := i) .task
  have hfree : ∀ j, ¬ (s.pc j).Holds := fun j hj => hl (h.locked j hj)
  have hheld : ∀ j, (if j = i then Pc.task else s.pc j).Holds → j = i := fun j hj => by
    split at hj
    · assumption
    · exact absurd hj (hfree j)
  refine ⟨h.current, fun j e hj => ?_, fun j => ?_, fun _ _ => rfl, fun j k hj hk => ?_⟩
  · simp only [hpc] at hj
    split at hj
    · cases hj
    · exact h.casId j e hj
  · simp only [hpc]; split
    · exact fun h => by cases h
    · exact h.noClear j
  · simp only [hpc] at hj hk
    rw [hheld j hj, hheld k hk]

omit [DecidableEq ExecId] in
/-- Releasing the lock: the holder was the only one. -/
theorem SafeInv.release (h : SafeInv s) (hi : s.pc i = .release) :
    SafeInv ⟨{ s.store with lock := .absent },
      Function.update s.pc i (.returned .executed)⟩ := by
  have hpc := update_apply_pc (s := s) (i := i) (.returned .executed)
  have hother : ∀ j, (if j = i then Pc.returned .executed else s.pc j).Holds → (s.pc j).Holds ∧ j ≠ i :=
    fun j hj => by
      split at hj
      · exact absurd hj id
      · exact ⟨hj, ‹_›⟩
  refine ⟨h.current, fun j e hj => ?_, fun j => ?_, fun j hj => ?_, fun j k hj hk => ?_⟩
  · simp only [hpc] at hj
    split at hj
    · cases hj
    · exact h.casId j e hj
  · simp only [hpc]; split
    · exact fun h => by cases h
    · exact h.noClear j
  · simp only [hpc] at hj
    obtain ⟨hj, hji⟩ := hother j hj
    exact absurd (h.excl j i hj (by rw [hi]; trivial)) hji
  · simp only [hpc] at hj hk
    exact h.excl j k (hother j hj).1 (hother k hk).1

/-- **One step keeps the invariant.** -/
theorem SafeInv.step (h : SafeInv s) (i : ι) (ending : TaskEnd) : SafeInv (s.step i ending) := by
  unfold Sys.step
  cases hi : s.pc i with
  | start =>
    simp only [Offchain.step]
    split
    · exact h.frame (fun h => by cases h) (fun e he => by cases he; assumption) (fun h => by cases h)
    · exact h.frame (fun h => by cases h) (fun _ h => by cases h) (fun h => by cases h)
  | casId e =>
    have hcur := h.current e (h.casId i e hi)
    simp only [Offchain.step, hcur, ne_eq, not_true_eq_false, if_false]
    exact h.frame (fun h => by cases h) (fun _ h => by cases h) (fun h => by cases h)
  | clearLock => exact absurd hi (h.noClear i)
  | casLock =>
    simp only [Offchain.step]
    split
    · exact h.frame (fun h => by cases h) (fun _ h => by cases h) (fun h => by cases h)
    · exact h.acquire (by assumption)
  | task =>
    simp only [Offchain.step]
    cases ending
    · exact h.frame (fun h => by cases h) (fun _ h => by cases h) (fun _ => by rw [hi]; trivial)
    · exact h.frame (fun h => by cases h) (fun _ h => by cases h) (fun h => by cases h)
  | release => exact h.release hi
  | returned r =>
    exact h.frame (fun h => by cases h) (fun _ h => by cases h) (fun h => by cases h)
  | panicked =>
    exact h.frame (fun h => by cases h) (fun _ h => by cases h) (fun h => by cases h)

end Preservation

/-- **Mutual exclusion once the id is current.**  From a storage whose id under the prefix is
    the node's execution id (or where the node stores none), in every interleaving of any
    number of invocations at most one holds the lock. -/
theorem mutualExclusion_of_current {st : LockStore ExecId}
    (hst : ∀ e, st.execId = .ok e → st.prefixId = .ok e) {s : Sys ι ExecId}
    (hs : Reachable st s) : MutualExclusion s := by
  suffices SafeInv s from this.excl
  induction hs with
  | init =>
    exact ⟨hst, fun _ _ h => (by cases h), fun _ h => (by cases h), fun _ h => h.elim,
      fun _ _ h => h.elim⟩
  | step i ending _ ih => exact ih.step i ending

/-- The first launch's schedule from a storage whose id is already the node's: at most one of
    the two invocations holds the lock. -/
theorem mutualExclusion_of_current_race :
    (∀ e, (⟨.ok 1, .ok 1, .absent⟩ : LockStore Nat).execId = .ok e →
        (⟨.ok 1, .ok 1, .absent⟩ : LockStore Nat).prefixId = .ok e) ∧
      Reachable ⟨.ok 1, .ok 1, .absent⟩
        ((⟨⟨.ok 1, .ok 1, .absent⟩, fun _ => .start⟩ : Sys Bool Nat).run firstLaunchRace) ∧
      MutualExclusion ((⟨⟨.ok 1, .ok 1, .absent⟩, fun _ => .start⟩ : Sys Bool Nat).run firstLaunchRace) :=
  have hst : ∀ e, (⟨.ok 1, .ok 1, .absent⟩ : LockStore Nat).execId = .ok e →
      (⟨.ok 1, .ok 1, .absent⟩ : LockStore Nat).prefixId = .ok e := fun _ h => h
  have hs := Reachable.init.run firstLaunchRace
  ⟨hst, hs, mutualExclusion_of_current hst hs⟩

end EqOracle.Offchain
