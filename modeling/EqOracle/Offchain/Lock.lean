/-
  EqOracle.Offchain.Lock
  ──────────────────────
  **`acquire_lock`: ONE INVOCATION, AND INVOCATIONS ONE AFTER ANOTHER.**

  `eq_utils::offchain::acquire_lock(prefix, f)` guards the oracle's offchain worker.  On the
  node's persistent storage it reads the node's execution id (`execution-id/`, written by the
  node at each start); stores it under `prefix ++ "exec_id"`, clearing the lock flag
  `prefix ++ "lock"` when the stored id was another one (the first launch after a restart);
  then sets the flag unless it is already `true`, runs `f`, and clears the flag.

  The code is modelled as a sequence of atomic steps (`step`), one per access to the storage:
  each `StorageValueRef::mutate` reads, applies its closure and writes in one step.  The same
  step function drives one invocation run alone (`acquireLock`, here) and invocations
  interleaved (`EqOracle.Offchain.Interleaving`).

  A panic of `f` ends the worker without running the final clear, so the flag stays `true`;
  only the first invocation after a restart clears it.  Invocations one after another
  therefore refine the abstract lock `specEvents`, which stays wedged from a panic to the next
  restart: `runEvents_eq_specEvents`.  That not every invocation runs its task is
  `runEvents_panic_then_locked`.
-/
import Mathlib.Logic.Function.Basic

namespace EqOracle.Offchain

/-! ## §1. Storage and program points. -/

/-- A value read back from persistent storage (`StorageValueRef::get`): absent, decoded, or
    present and undecodable. -/
inductive Stored (α : Type) where
  | absent
  | ok (a : α)
  | undecodable
  deriving DecidableEq

/-- The keys `acquire_lock` reads and writes. -/
structure LockStore (ExecId : Type) where
  /-- `execution-id/`, written by the node when it starts. -/
  execId : Stored ExecId
  /-- `prefix ++ "exec_id"`: the execution id an invocation last stored. -/
  prefixId : Stored ExecId
  /-- `prefix ++ "lock"`. -/
  lock : Stored Bool
  deriving DecidableEq

/-- `LockedExecResult`. -/
inductive LockedExecResult where
  | locked
  | executed
  deriving DecidableEq

/-- How the task `f` ends: it returns (normally or early), or it panics. -/
inductive TaskEnd where
  | returns
  | panics
  deriving DecidableEq

/-- Where an invocation of `acquire_lock` is: before which access to the storage. -/
inductive Pc (ExecId : Type) where
  /-- Before `StorageValueRef::persistent(EXEC_ID_KEY).get()`. -/
  | start
  /-- Before `id_storage.mutate(..)`, with the `exec_id` it read. -/
  | casId (execId : ExecId)
  /-- `need_to_clear_lock.is_ok()`: before `lock_storage.clear()`. -/
  | clearLock
  /-- Before `lock_storage.mutate(..)`. -/
  | casLock
  /-- Running `f()`. -/
  | task
  /-- Before the final `lock_storage.clear()`. -/
  | release
  /-- Returned. -/
  | returned (r : LockedExecResult)
  /-- `f()` panicked: the invocation ended without returning. -/
  | panicked
  deriving DecidableEq

variable {ExecId : Type} [DecidableEq ExecId]

/-- One atomic step of an invocation whose task ends as `ending`. -/
def step (ending : TaskEnd) : Pc ExecId → LockStore ExecId → Pc ExecId × LockStore ExecId
  | .start, st =>
    match st.execId with
    | .ok execId => (.casId execId, st)
    | _ => (.casLock, st)
  | .casId execId, st =>
    match st.prefixId with
    | .ok val =>
      if val ≠ execId then (.clearLock, { st with prefixId := .ok execId }) else (.casLock, st)
    | _ => (.clearLock, { st with prefixId := .ok execId })
  | .clearLock, st => (.casLock, { st with lock := .absent })
  | .casLock, st =>
    match st.lock with
    | .ok true => (.returned .locked, st)
    | _ => (.task, { st with lock := .ok true })
  | .task, st =>
    match ending with
    | .returns => (.release, st)
    | .panics => (.panicked, st)
  | .release, st => (.returned .executed, { st with lock := .absent })
  | .returned r, st => (.returned r, st)
  | .panicked, st => (.panicked, st)

/-! ## §2. One invocation alone. -/

/-- `n` steps of one invocation that runs alone. -/
def runAlone (ending : TaskEnd) : Nat → Pc ExecId × LockStore ExecId → Pc ExecId × LockStore ExecId
  | 0, c => c
  | n + 1, c => runAlone ending n (step ending c.1 c.2)

/-- `acquire_lock(prefix, f)` run alone: six steps reach its end (`acquireLock_eq`). -/
def acquireLock (ending : TaskEnd) (st : LockStore ExecId) : Pc ExecId × LockStore ExecId :=
  runAlone ending 6 (.start, st)

/-- The storage after the execution-id part: with an execution id other than the stored one,
    the id is stored and the lock flag cleared. -/
def idPhase (st : LockStore ExecId) : LockStore ExecId :=
  match st.execId with
  | .ok e => if st.prefixId = .ok e then st else { st with prefixId := .ok e, lock := .absent }
  | _ => st

/-- The lock part, from the storage `idPhase` leaves. -/
def lockPhase (ending : TaskEnd) (st : LockStore ExecId) : Pc ExecId × LockStore ExecId :=
  if st.lock = .ok true then (.returned .locked, st)
  else
    match ending with
    | .returns => (.returned .executed, { st with lock := .absent })
    | .panics => (.panicked, { st with lock := .ok true })

/-- Running `m + n` steps is running `n`, then `m`. -/
theorem runAlone_add (ending : TaskEnd) (m : Nat) :
    ∀ n (c : Pc ExecId × LockStore ExecId),
      runAlone ending (m + n) c = runAlone ending m (runAlone ending n c)
  | 0, _ => rfl
  | n + 1, c => runAlone_add ending m n (step ending c.1 c.2)

theorem runAlone_returned (ending : TaskEnd) (r : LockedExecResult) (st : LockStore ExecId) :
    ∀ n, runAlone ending n (.returned r, st) = (.returned r, st)
  | 0 => rfl
  | n + 1 => runAlone_returned ending r st n

theorem runAlone_panicked (ending : TaskEnd) (st : LockStore ExecId) :
    ∀ n, runAlone ending n (.panicked, st) = (.panicked, st)
  | 0 => rfl
  | n + 1 => runAlone_panicked ending st n

/-- The lock part ends the invocation: further steps change nothing. -/
theorem runAlone_lockPhase (ending : TaskEnd) (st : LockStore ExecId) (n : Nat) :
    runAlone ending n (lockPhase ending st) = lockPhase ending st := by
  unfold lockPhase
  split
  · exact runAlone_returned ..
  · cases ending
    · exact runAlone_returned ..
    · exact runAlone_panicked ..

/-- From `casLock`, three steps reach the end of the lock part. -/
theorem runAlone_casLock (ending : TaskEnd) (st : LockStore ExecId) (k : Nat) :
    runAlone ending (k + 3) (.casLock, st) = lockPhase ending st := by
  rw [runAlone_add, ← runAlone_lockPhase ending st k]
  congr 1
  unfold lockPhase
  rcases st with ⟨execId, prefixId, _ | (_ | _) | _⟩ <;> cases ending <;> rfl

/-- **One invocation alone**: the execution-id part, then the lock part.  Without an execution
    id, or with one already stored, the invocation goes straight to `casLock`; with a new one it
    stores it and clears the flag first. -/
theorem acquireLock_eq (ending : TaskEnd) (st : LockStore ExecId) :
    acquireLock ending st = lockPhase ending (idPhase st) := by
  rcases st with ⟨_ | e | _, prefixId, lock⟩
  · exact runAlone_casLock ending _ 2
  · rcases prefixId with _ | val | _
    · exact runAlone_casLock ending _ 0
    · by_cases h : val = e
      · subst h
        rw [show idPhase ⟨.ok val, .ok val, lock⟩ = ⟨.ok val, .ok val, lock⟩ by simp [idPhase],
          ← runAlone_casLock ending _ 1]
        simp [acquireLock, runAlone, step]
      · rw [show idPhase ⟨.ok e, .ok val, lock⟩ = ⟨.ok e, .ok e, .absent⟩ by simp [idPhase, h],
          ← runAlone_casLock ending _ 0]
        simp [acquireLock, runAlone, step, h]
    · exact runAlone_casLock ending _ 0
  · exact runAlone_casLock ending _ 2

/-- The end of an invocation: the result it returned, or `none` when its task panicked. -/
def Pc.result : Pc ExecId → Option LockedExecResult
  | .returned r => some r
  | _ => none

/-! ## §3. Invocations one after another. -/

/-- Between invocations the node may restart, storing a new execution id.  A process killed
    during its task is an invocation whose task panics, followed by a restart. -/
inductive Event (ExecId : Type) where
  | invoke (ending : TaskEnd)
  | restart (execId : ExecId)

/-- Invocations that do not overlap, and restarts: what each invocation ends with. -/
def runEvents : LockStore ExecId → List (Event ExecId) → List (Option LockedExecResult)
  | _, [] => []
  | st, .invoke ending :: evs =>
    (acquireLock ending st).1.result :: runEvents (acquireLock ending st).2 evs
  | st, .restart e :: evs => runEvents { st with execId := .ok e } evs

/-- Each restart stores an execution id other than the one stored under the prefix. -/
def FreshRestarts : LockStore ExecId → List (Event ExecId) → Prop
  | _, [] => True
  | st, .invoke ending :: evs => FreshRestarts (acquireLock ending st).2 evs
  | st, .restart e :: evs => st.prefixId ≠ .ok e ∧ FreshRestarts { st with execId := .ok e } evs

/-- **The abstract lock**, one invocation: it runs its task unless the lock is wedged; a
    task's panic wedges it. -/
def specInvoke (wedged : Bool) (ending : TaskEnd) : Option LockedExecResult × Bool :=
  if wedged then (some .locked, true)
  else
    match ending with
    | .returns => (some .executed, false)
    | .panics => (none, true)

/-- The abstract lock over invocations and restarts: only a restart frees a wedged lock. -/
def specEvents : Bool → List (Event ExecId) → List (Option LockedExecResult)
  | _, [] => []
  | wedged, .invoke ending :: evs =>
    (specInvoke wedged ending).1 :: specEvents (specInvoke wedged ending).2 evs
  | _, .restart _ :: evs => specEvents false evs

/-- How the storage represents the abstract lock: not wedged while the next invocation will
    clear the flag; otherwise the flag is `true` exactly when wedged. -/
structure Refines (st : LockStore ExecId) (wedged : Bool) : Prop where
  fresh : ∀ e, st.execId = .ok e → st.prefixId ≠ .ok e → wedged = false
  flag : (∀ e, st.execId = .ok e → st.prefixId = .ok e) → (st.lock = .ok true ↔ wedged = true)

theorem idPhase_of_current {st : LockStore ExecId}
    (h : ∀ e, st.execId = .ok e → st.prefixId = .ok e) : idPhase st = st := by
  unfold idPhase
  split
  · rw [if_pos (h _ ‹_›)]
  · rfl

theorem idPhase_of_new {st : LockStore ExecId} {e : ExecId} (he : st.execId = .ok e)
    (hp : st.prefixId ≠ .ok e) : idPhase st = { st with prefixId := .ok e, lock := .absent } := by
  simp [idPhase, he, hp]

/-- **One invocation refines one abstract invocation.** -/
theorem Refines.invoke {st : LockStore ExecId} {wedged : Bool} (h : Refines st wedged)
    (ending : TaskEnd) :
    (acquireLock ending st).1.result = (specInvoke wedged ending).1 ∧
      Refines (acquireLock ending st).2 (specInvoke wedged ending).2 := by
  rw [acquireLock_eq]
  by_cases hn : ∃ e, st.execId = .ok e ∧ st.prefixId ≠ .ok e
  · -- a new execution id: the flag is cleared first
    obtain ⟨e, he, hp⟩ := hn
    rw [idPhase_of_new he hp, h.fresh e he hp]
    cases ending
    · exact ⟨rfl, fun _ _ _ => rfl, fun _ => by simp [lockPhase, specInvoke]⟩
    · exact ⟨rfl, fun _ h₁ h₂ => absurd (he.symm.trans h₁) h₂, fun _ => by simp [lockPhase, specInvoke]⟩
  · -- the stored id is current: the flag decides
    have hc : ∀ e, st.execId = .ok e → st.prefixId = .ok e :=
      fun e he => Classical.byContradiction fun hp => hn ⟨e, he, hp⟩
    have hflag := h.flag hc
    rw [idPhase_of_current hc]
    cases wedged
    · have hl : st.lock ≠ .ok true := fun hl => by simpa using hflag.mp hl
      cases ending <;> simp only [lockPhase, if_neg hl, specInvoke] <;>
        exact ⟨rfl, fun e he hp => (hn ⟨e, he, hp⟩).elim, fun _ => by simp⟩
    · simp only [lockPhase, if_pos (hflag.mpr rfl), specInvoke, if_true]
      exact ⟨rfl, fun e he hp => (hn ⟨e, he, hp⟩).elim, fun _ => hflag⟩

omit [DecidableEq ExecId] in
/-- A restart to an execution id other than the stored one frees the lock. -/
theorem Refines.restart {st : LockStore ExecId} {e : ExecId} (hne : st.prefixId ≠ .ok e) :
    Refines { st with execId := .ok e } false :=
  ⟨fun _ _ _ => rfl, fun h => absurd (h e rfl) hne⟩

/-- The run lemma: from a refining storage, the invocations end as the abstract lock says. -/
theorem runEvents_of_refines :
    ∀ (evs : List (Event ExecId)) (st : LockStore ExecId) (wedged : Bool),
      Refines st wedged → FreshRestarts st evs → runEvents st evs = specEvents wedged evs
  | [], _, _, _, _ => rfl
  | .invoke ending :: evs, st, wedged, h, hfresh => by
    obtain ⟨h₁, h₂⟩ := h.invoke ending
    simp only [runEvents, specEvents, h₁, runEvents_of_refines evs _ _ h₂ hfresh]
  | .restart e :: evs, st, _, _, ⟨hne, hfresh⟩ =>
    runEvents_of_refines evs _ false (Refines.restart hne) hfresh

/-- **Invocations one after another refine the wedging lock.**  From a storage with no lock
    flag, through invocations that do not overlap and restarts that each store an execution
    id other than the one stored under the prefix, an invocation runs its task exactly when no
    task has panicked since the last restart, and otherwise returns `Locked`; a task that
    returns (normally or early) always ends with `Executed`. -/
theorem runEvents_eq_specEvents (st : LockStore ExecId) (hlock : st.lock = .absent)
    (evs : List (Event ExecId)) (hfresh : FreshRestarts st evs) :
    runEvents st evs = specEvents false evs :=
  runEvents_of_refines evs st false ⟨fun _ _ _ => rfl, fun _ => by simp [hlock]⟩ hfresh

theorem runEvents_eq_specEvents_restart :
    (⟨.ok 0, .ok 0, .absent⟩ : LockStore Nat).lock = .absent ∧
      FreshRestarts (⟨.ok 0, .ok 0, .absent⟩ : LockStore Nat)
        [.invoke .panics, .invoke .returns, .restart 1, .invoke .returns] ∧
      runEvents (⟨.ok 0, .ok 0, .absent⟩ : LockStore Nat)
          [.invoke .panics, .invoke .returns, .restart 1, .invoke .returns] =
        specEvents false [.invoke .panics, .invoke .returns, .restart 1, .invoke .returns] :=
  have hfresh : FreshRestarts (⟨.ok 0, .ok 0, .absent⟩ : LockStore Nat)
      [.invoke .panics, .invoke .returns, .restart 1, .invoke .returns] :=
    ⟨by decide, trivial⟩
  ⟨rfl, hfresh, runEvents_eq_specEvents _ rfl _ hfresh⟩

/-- **A panic wedges the lock until a restart.**  The task of the first invocation panics;
    the flag stays `true`, and the next invocation, with no restart between, returns `Locked`
    without running its task. -/
theorem runEvents_panic_then_locked :
    (acquireLock .panics (⟨.ok 0, .ok 0, .absent⟩ : LockStore Nat)).2.lock = .ok true ∧
      runEvents (⟨.ok 0, .ok 0, .absent⟩ : LockStore Nat) [.invoke .panics, .invoke .returns] =
        [none, some .locked] :=
  ⟨rfl, rfl⟩

end EqOracle.Offchain
