/-
  EqOracle.BinarySearch
  ─────────────────────
  **SORTED INSERTION: `slice::binary_search_by` THEN `Vec::insert`.**

  `set_price_inner` keeps the price points of an asset ordered by price by inserting each new
  point at the position `binary_search_by(|dp| dp.price.cmp(&price))` returns (`Ok(pos)` or
  `Err(pos)`, the same either way).  The standard library is not part of the repository, so
  its loop is modelled here as it stands in `core::slice` (Rust 1.52 and later):

      let mut size = self.len(); let mut left = 0; let mut right = size;
      while left < right {
          let mid = left + size / 2;
          let cmp = f(self.get_unchecked(mid));
          if cmp == Less { left = mid + 1 } else if cmp == Greater { right = mid }
          else { return Ok(mid) }
          size = right - left;
      }
      Err(left)

  Main results:
    * `binarySearchBy_insertPos` — on a list sorted by price, the returned position splits
      it into the prices `≤ price` and the prices `≥ price`;
    * `insertIdx_sorted` — inserting there keeps the list sorted;
    * `insertIdx_eq_take_drop`, `length_binarySearchBy_pos` — the position is in bounds, so
      `Vec::insert` never panics.
-/
import EqOracle.Fixed
import Mathlib.Data.List.Sort
import Mathlib.Data.List.InsertIdx

namespace EqOracle

variable {α : Type}

/-! ## §1. The loop. -/

/-- The `while` loop of `binary_search_by`, with `size = right - left`.  `fuel` bounds the
    iterations: it starts at `len` and each iteration shrinks `right - left`, so
    `right - left ≤ fuel` throughout and the `fuel = 0` case is the loop's exit. -/
def binarySearchGo (xs : List α) (f : α → Ordering) :
    (fuel left right : Nat) → right ≤ xs.length → Except Nat Nat
  | 0, left, _, _ => .error left
  | fuel + 1, left, right, hr =>
    if hlr : left < right then
      match f (xs.get ⟨left + (right - left) / 2, by omega⟩) with
      | .lt => binarySearchGo xs f fuel (left + (right - left) / 2 + 1) right hr
      | .gt => binarySearchGo xs f fuel left (left + (right - left) / 2) (by omega)
      | .eq => .ok (left + (right - left) / 2)
    else .error left

/-- `slice::binary_search_by`. -/
def binarySearchBy (xs : List α) (f : α → Ordering) : Except Nat Nat :=
  binarySearchGo xs f xs.length 0 xs.length (Nat.le_refl _)

/-- `Ok(pos) | Err(pos) => pos`. -/
def insertPos : Except Nat Nat → Nat
  | .ok pos => pos
  | .error pos => pos

/-! ## §2. Where the position falls. -/

section Sorted

variable (xs : List α) (k : α → FixedI64) (p : FixedI64)

/-- The list is sorted by the key. -/
def SortedBy : Prop := xs.Pairwise (fun a b => (k a).inner ≤ (k b).inner)

/-- `r` splits `xs` into keys `≤ p` before it and keys `≥ p` from it on. -/
def InsertPos (r : Nat) : Prop :=
  r ≤ xs.length ∧ (∀ j (hj : j < xs.length), j < r → (k xs[j]).inner ≤ p.inner) ∧
    (∀ j (hj : j < xs.length), r ≤ j → p.inner ≤ (k xs[j]).inner)

variable {xs k}

theorem SortedBy.le_of_le (hs : SortedBy xs k) {i j : Nat} (hi : i < xs.length)
    (hj : j < xs.length) (hij : i ≤ j) : (k xs[i]).inner ≤ (k xs[j]).inner := by
  rcases Nat.lt_or_eq_of_le hij with h | rfl
  · exact List.pairwise_iff_getElem.mp hs i j hi hj h
  · exact Int.le_refl _

/-- The loop's exit: once `left` meets `right`, `Err(left)` is an insertion position. -/
theorem insertPos_of_meet {left right : Nat} (h : left = right) (hr : right ≤ xs.length)
    (hl : ∀ j (hj : j < xs.length), j < left → (k xs[j]).inner < p.inner)
    (hrt : ∀ j (hj : j < xs.length), right ≤ j → p.inner < (k xs[j]).inner) :
    InsertPos xs k p (insertPos (.error left)) :=
  ⟨h ▸ hr, fun j hj hjl => Int.le_of_lt (hl j hj hjl),
    fun j hj hjr => Int.le_of_lt (hrt j hj (h ▸ hjr))⟩

/-- **The loop invariant.**  Keys left of `left` are `< p`, keys from `right` on are `> p`;
    whatever the loop returns is then an insertion position. -/
theorem binarySearchGo_insertPos (hs : SortedBy xs k) :
    ∀ fuel left right (hr : right ≤ xs.length), right - left ≤ fuel → left ≤ right →
      (∀ j (hj : j < xs.length), j < left → (k xs[j]).inner < p.inner) →
      (∀ j (hj : j < xs.length), right ≤ j → p.inner < (k xs[j]).inner) →
      InsertPos xs k p (insertPos (binarySearchGo xs (fun x => (k x).cmp p) fuel left right hr))
  | 0, left, right, hr, hf, hlr, hl, hrt => insertPos_of_meet p (by omega) hr hl hrt
  | fuel + 1, left, right, hr, hf, hlr, hl, hrt => by
    rw [binarySearchGo]
    split
    · rename_i hlt
      have hmid : left + (right - left) / 2 < xs.length := by omega
      split
      · rename_i hc
        have hc' := FixedI64.cmp_eq_lt.mp (List.get_eq_getElem .. ▸ hc)
        refine binarySearchGo_insertPos hs fuel _ right hr (by omega) (by omega) ?_ hrt
        intro j hj hjl
        by_cases hjl' : j < left
        · exact hl j hj hjl'
        · exact Int.lt_of_le_of_lt (hs.le_of_le hj hmid (by omega)) hc'
      · rename_i hc
        have hc' := FixedI64.cmp_eq_gt.mp (List.get_eq_getElem .. ▸ hc)
        exact binarySearchGo_insertPos hs fuel left _ (by omega) (by omega) (by omega) hl
          fun j hj hjr => Int.lt_of_lt_of_le hc' (hs.le_of_le hmid hj hjr)
      · rename_i hc
        have hc' := FixedI64.cmp_eq_eq.mp (List.get_eq_getElem .. ▸ hc)
        refine ⟨by simp only [insertPos]; omega, fun j hj hjm => ?_, fun j hj hjm => ?_⟩
        · exact hc' ▸ hs.le_of_le hj hmid (Nat.le_of_lt hjm)
        · exact hc' ▸ hs.le_of_le hmid hj hjm
    · exact insertPos_of_meet p (by omega) hr hl hrt

/-- **`binary_search_by` finds an insertion position** on a sorted list. -/
theorem binarySearchBy_insertPos (hs : SortedBy xs k) :
    InsertPos xs k p (insertPos (binarySearchBy xs (fun x => (k x).cmp p))) :=
  binarySearchGo_insertPos p hs _ _ _ _ (by omega) (Nat.zero_le _)
    (fun _ _ h => absurd h (Nat.not_lt_zero _)) (fun _ hj h => absurd hj (by omega))

end Sorted

/-- The loop never returns a position past `right`, whatever the order of the list. -/
theorem binarySearchGo_pos_le (xs : List α) (f : α → Ordering) :
    ∀ fuel left right (hr : right ≤ xs.length), left ≤ right →
      insertPos (binarySearchGo xs f fuel left right hr) ≤ right
  | 0, left, right, hr, hlr => hlr
  | fuel + 1, left, right, hr, hlr => by
    rw [binarySearchGo]
    split
    · split
      · exact binarySearchGo_pos_le xs f fuel _ right hr (by omega)
      · exact Nat.le_trans (binarySearchGo_pos_le xs f fuel left _ _ (by omega)) (by omega)
      · simp only [insertPos]; omega
    · exact hlr

/-- The position is in bounds: `Vec::insert` at it never panics. -/
theorem length_binarySearchBy_pos (xs : List α) (f : α → Ordering) :
    insertPos (binarySearchBy xs f) ≤ xs.length :=
  binarySearchGo_pos_le xs f _ _ _ _ (Nat.zero_le _)

/-! ## §3. Inserting at the position. -/

/-- `Vec::insert(pos, x)` for `pos ≤ len`: the prefix, `x`, the rest. -/
theorem insertIdx_eq_take_drop (x : α) :
    ∀ (l : List α) (n : Nat), n ≤ l.length → l.insertIdx n x = l.take n ++ x :: l.drop n
  | l, 0, _ => by simp [List.insertIdx_zero]
  | [], _ + 1, h => absurd h (by simp)
  | a :: l, n + 1, h => by
    rw [List.insertIdx_succ_cons, insertIdx_eq_take_drop x l n (by simpa using h)]
    rfl

theorem insertIdx_ne_nil (x : α) {l : List α} {n : Nat} (h : n ≤ l.length) :
    l.insertIdx n x ≠ [] := by
  rw [insertIdx_eq_take_drop x l n h]; simp

/-- **Inserting at an insertion position keeps the list sorted.** -/
theorem insertIdx_sorted {xs : List α} {k : α → FixedI64} {x : α} {r : Nat}
    (hs : SortedBy xs k) (hr : InsertPos xs k (k x) r) : SortedBy (xs.insertIdx r x) k := by
  obtain ⟨hlen, hle, hge⟩ := hr
  have hsplit : SortedBy (xs.take r ++ xs.drop r) k := by rwa [List.take_append_drop]
  obtain ⟨htake, hdrop, hcross⟩ := List.pairwise_append.mp hsplit
  unfold SortedBy
  rw [insertIdx_eq_take_drop x xs r hlen, List.pairwise_append]
  refine ⟨htake, List.pairwise_cons.mpr ⟨fun b hb => ?_, hdrop⟩, fun a ha b hb => ?_⟩
  · obtain ⟨i, hi, rfl⟩ := List.mem_drop_iff_getElem.mp hb
    exact hge (r + i) (by omega) (Nat.le_add_right _ _)
  · rcases List.mem_cons.mp hb with rfl | hb
    · obtain ⟨i, hi, rfl⟩ := List.mem_take_iff_getElem.mp ha
      exact hle i _ (Nat.lt_of_lt_of_le hi (Nat.min_le_left _ _))
    · exact hcross a ha b hb

end EqOracle
