/-
  EqOracle.PriceSource.Path
  ─────────────────────────
  **THE PATH WALK OF `fetch_price_from_json`, AGAINST THE PATH GRAMMAR.**

  A path is `.`-separated segments; a segment is a plain key, or an optional key followed by
  one or more bracketed decimal indices, `k[d₀][d₁]…`.  The reference evaluator looks the
  key up, then applies each index in turn.  The loop of `fetch_price_from_json` goes over
  the spans `get_index_offsets` returns and, for every group whose `[` is not the segment's
  first character, looks up `index[..start]`: the WHOLE text in front of the group.  For the
  first group that text is the key; for a later one it is the key together with the earlier
  groups (`a[0]` before the `[1]` of `a[0][1]`), looked up in the element the earlier groups
  selected.

    • `splitChar_renderPath` — a rendered path splits back into its segments;
    • `indexOffsetsFrom_brackets_cons` — the spans of the groups of a segment;
    • `walkIndex_group`, `walkSegment_key`, `walkSegment_indexed` — what the loop does with
      each segment of the grammar (`walkGroups`);
    • `walkSegment_render`, `fetchPriceFromJson_eq_refEval` — on segments, then paths, with at
      most one index per segment, each within `usize`, the code is the reference evaluator;
    • on `{"a":[[1,2]]}` the path `a[0][1]` selects `2` in the reference and is a parse
      error in the code.
-/
import EqOracle.PriceSource.Json

namespace EqOracle.PriceSource

open Text

/-! ## §1. The path grammar and the reference evaluator. -/

/-- A path segment: a plain key, or an optional key followed by bracketed decimal indices. -/
inductive Segment where
  | key (k : List Char)
  | indexed (k : List Char) (indices : List (List Char))

/-- The bracketed groups `[d₀][d₁]…`. -/
def brackets (ds : List (List Char)) : List Char := ds.flatMap fun d => '[' :: d ++ [']']

/-- The text of a segment. -/
def Segment.render : Segment → List Char
  | .key k => k
  | .indexed k ds => k ++ brackets ds

/-- The indices of a segment. -/
def Segment.indices : Segment → List (List Char)
  | .key _ => []
  | .indexed _ ds => ds

/-- The text of the path `s.t₀.t₁…`. -/
def renderPath (s : Segment) : List Segment → List Char
  | [] => s.render
  | t :: ts => s.render ++ '.' :: renderPath t ts

/-- A key: no `.`, and no bracketed decimal group. -/
def IsKey (k : List Char) : Prop := '.' ∉ k ∧ getIndexOffsets k = []

/-- A bracketed index: one or more ASCII digits. -/
def IsIndex (d : List Char) : Prop := d ≠ [] ∧ d.all Char.isDigit = true

/-- A segment of the grammar. -/
def Segment.WellFormed : Segment → Prop
  | .key k => IsKey k
  | .indexed k ds => IsKey k ∧ ds ≠ [] ∧ ∀ d ∈ ds, IsIndex d

instance (k : List Char) : Decidable (IsKey k) := inferInstanceAs (Decidable (_ ∧ _))

instance (d : List Char) : Decidable (IsIndex d) := inferInstanceAs (Decidable (_ ∧ _))

instance : (s : Segment) → Decidable s.WellFormed
  | .key k => inferInstanceAs (Decidable (IsKey k))
  | .indexed k ds => inferInstanceAs (Decidable (IsKey k ∧ ds ≠ [] ∧ ∀ d ∈ ds, IsIndex d))

/-- The reference evaluator of a segment: the object key (when there is one), then each array
    index in turn. -/
def refSegment (v : Value) : Segment → Option Value
  | .key k => v.getKey k
  | .indexed k ds =>
    (if k = [] then some v else v.getKey k).bind fun u =>
      ds.foldlM (fun w d => w.getIdx (digitsValue d)) u

/-- The reference evaluator of a path. -/
def refEval (v : Value) (segs : List Segment) : Option Value := segs.foldlM refSegment v

/-! ## §2. Splitting a path. -/

theorem splitChar_of_not_mem {c : Char} : ∀ {s : List Char}, c ∉ s → splitChar c s = [s]
  | [], _ => rfl
  | x :: xs, h => by
    rw [List.mem_cons, not_or] at h
    rw [splitChar, if_neg (fun e => h.1 e.symm), splitChar_of_not_mem h.2]

theorem splitChar_append_cons {c : Char} (t : List Char) :
    ∀ {s : List Char}, c ∉ s → splitChar c (s ++ c :: t) = s :: splitChar c t
  | [], _ => by rw [List.nil_append, splitChar, if_pos rfl]
  | x :: xs, h => by
    rw [List.mem_cons, not_or] at h
    rw [List.cons_append, splitChar, if_neg (fun e => h.1 e.symm), splitChar_append_cons t h.2]

/-- **A rendered path splits back into its segments** when none of them holds a `.`. -/
theorem splitChar_renderPath : ∀ (s : Segment) (ss : List Segment),
    (∀ seg ∈ s :: ss, '.' ∉ seg.render) →
      splitChar '.' (renderPath s ss) = (s :: ss).map Segment.render
  | s, [], h => splitChar_of_not_mem (h s (List.mem_cons_self _ _))
  | s, t :: ts, h => by
    rw [renderPath, splitChar_append_cons _ (h s (List.mem_cons_self _ _)),
      splitChar_renderPath t ts (fun seg hseg => h seg (List.mem_cons_of_mem _ hseg))]
    rfl

theorem mem_brackets {ds : List (List Char)} (hds : ∀ d ∈ ds, IsIndex d) {c : Char}
    (h : c ∈ brackets ds) : c = '[' ∨ c = ']' ∨ c.isDigit = true := by
  simp only [brackets, List.mem_flatMap, List.cons_append, List.mem_cons, List.mem_append,
    List.not_mem_nil, or_false] at h
  obtain ⟨d, hd, rfl | hc | rfl⟩ := h
  · exact .inl rfl
  · exact .inr (.inr (List.all_eq_true.mp (hds d hd).2 c hc))
  · exact .inr (.inl rfl)

theorem dot_not_mem_render {seg : Segment} (h : seg.WellFormed) : '.' ∉ seg.render := by
  cases seg with
  | key k => exact h.1
  | indexed k ds =>
    intro hm
    rcases List.mem_append.mp hm with hk | hb
    · exact h.1.1 hk
    · rcases mem_brackets h.2.2 hb with h' | h' | h' <;> revert h' <;> decide

/-! ## §3. The spans of the groups. -/

/-- The scan for the digits of a group stops before a text with no digits before a `]`. -/
theorem digitsBeforeClose_append (t : List Char) (ht : ∀ n, digitsBeforeClose t n = none) :
    ∀ (s : List Char) (n : Nat), digitsBeforeClose (s ++ t) n = digitsBeforeClose s n
  | [], n => ht n
  | c :: s, n => by
    rw [List.cons_append, digitsBeforeClose, digitsBeforeClose, digitsBeforeClose_append t ht s]

theorem digitsBeforeClose_brackets (ds : List (List Char)) (n : Nat) :
    digitsBeforeClose (brackets ds) n = none := by
  cases ds <;> rfl

theorem digitsBeforeClose_digits : ∀ {d : List Char}, d.all Char.isDigit = true → ∀ n,
    digitsBeforeClose (d ++ [']']) n = if n + d.length = 0 then none else some (n + d.length)
  | [], _, n => by simp [digitsBeforeClose]
  | c :: d, h, n => by
    rw [List.all_cons, Bool.and_eq_true] at h
    have hc : c ≠ ']' := by rintro rfl; exact absurd h.1 (by decide)
    rw [List.cons_append, digitsBeforeClose, if_neg hc, if_pos h.1, digitsBeforeClose_digits h.2,
      List.length_cons, Nat.add_right_comm, Nat.add_assoc]

/-- The spans of `s ++ t` are those of `s` and those of `t`, when `t` starts a new group. -/
theorem indexOffsetsFrom_append (t : List Char) (ht : ∀ n, digitsBeforeClose t n = none) :
    ∀ (s : List Char) (p : Nat),
      indexOffsetsFrom (s ++ t) p = indexOffsetsFrom s p ++ indexOffsetsFrom t (p + s.length)
  | [], _ => rfl
  | c :: s, p => by
    rw [List.cons_append, indexOffsetsFrom, indexOffsetsFrom, digitsBeforeClose_append t ht,
      indexOffsetsFrom_append t ht s (p + 1), List.length_cons, Nat.add_right_comm p 1,
      ← Nat.add_assoc]
    by_cases hc : c = '['
    · simp only [if_pos hc]
      cases digitsBeforeClose s 0 <;> rfl
    · simp only [if_neg hc]

theorem indexOffsetsFrom_eq_nil : ∀ {s : List Char}, '[' ∉ s → ∀ p, indexOffsetsFrom s p = []
  | [], _, _ => rfl
  | c :: s, h, p => by
    rw [List.mem_cons, not_or] at h
    rw [indexOffsetsFrom]
    simp only [if_neg (Ne.symm h.1), indexOffsetsFrom_eq_nil h.2]

/-- The span of one group `[d]`: from its `[` to one past its `]`. -/
theorem indexOffsetsFrom_group {d : List Char} (hd : IsIndex d) (p : Nat) :
    indexOffsetsFrom ('[' :: d ++ [']']) p = [(p, p + d.length + 2)] := by
  have hlen : d.length ≠ 0 := fun h => hd.1 (List.length_eq_zero.mp h)
  have hno : '[' ∉ d ++ [']'] := by
    rw [List.mem_append, List.mem_singleton, not_or]
    exact ⟨fun h => absurd (List.all_eq_true.mp hd.2 _ h) (by decide), by decide⟩
  rw [List.cons_append, indexOffsetsFrom]
  simp only [if_pos, digitsBeforeClose_digits hd.2, Nat.zero_add, if_neg hlen,
    indexOffsetsFrom_eq_nil hno]

/-- **The spans of the groups of a segment**, one per group, in order. -/
theorem indexOffsetsFrom_brackets_cons {d : List Char} (hd : IsIndex d) (ds : List (List Char))
    (p : Nat) : indexOffsetsFrom (brackets (d :: ds)) p =
      (p, p + d.length + 2) :: indexOffsetsFrom (brackets ds) (p + d.length + 2) := by
  rw [show brackets (d :: ds) = ('[' :: d ++ [']']) ++ brackets ds from rfl,
    indexOffsetsFrom_append _ (digitsBeforeClose_brackets ds), indexOffsetsFrom_group hd,
    show p + ('[' :: d ++ [']']).length = p + d.length + 2 by simp; omega, List.singleton_append]

/-! ## §4. The loop over the groups. -/

/-- `ok_or_else(|| JsonParseError)` of a `Value::get`. -/
def orParseError (o : Option Value) : Fallible Value :=
  match o with
  | some v => pure v
  | none => throw .jsonParseError

/-- One group `[d]` of a segment, with the text `pre` in front of it, as the loop reads it:
    `pre` looked up when it is not empty, then `d` parsed as a `usize` (a panic when it is not
    one) and applied as an array index. -/
def walkGroup (pre d : List Char) (v : Value) : Fallible Value := do
  let u ← if pre = [] then pure v else orParseError (v.getKey pre)
  let i ← match parseUsize d with
    | some i => pure i
    | none => abort
  orParseError (u.getIdx i)

/-- The groups `[d₀][d₁]…` behind the text `pre`, one after another: the text in front of a
    group takes in every group before it. -/
def walkGroups : List Char → List (List Char) → Value → Fallible Value
  | _, [], v => pure v
  | pre, d :: ds, v => walkGroup pre d v >>= walkGroups (pre ++ '[' :: d ++ [']']) ds

/-- **One iteration of the loop** reads the text in front of its group and the group's digits,
    whatever follows the group. -/
theorem walkIndex_group (pre d post : List Char) (v : Value) :
    walkIndex ((pre ++ '[' :: d ++ [']']) ++ post) v (pre.length, pre.length + d.length + 2) =
      walkGroup pre d v := by
  have htake : ((pre ++ '[' :: d ++ [']']) ++ post).take pre.length = pre := by
    simp only [List.append_assoc]; exact List.take_left _ _
  have hslice : slice ((pre ++ '[' :: d ++ [']']) ++ post) (pre.length + 1)
      (pre.length + d.length + 2 - 1) = d := by
    rw [show (pre ++ '[' :: d ++ [']']) ++ post = (pre ++ ['[']) ++ (d ++ ']' :: post) by simp,
      slice, List.drop_left' (by simp), show pre.length + d.length + 2 - 1 - (pre.length + 1) =
        d.length by omega, List.take_left]
  simp only [walkIndex, htake, hslice, ne_eq, List.length_eq_zero, walkGroup, ite_not]
  split
  · rfl
  · cases v.getKey pre <;> rfl

theorem foldlM_walkIndex_brackets (post : List Char) : ∀ (pre : List Char)
    (ds : List (List Char)), (∀ d ∈ ds, IsIndex d) → ∀ v,
      (indexOffsetsFrom (brackets ds) pre.length).foldlM (walkIndex (pre ++ (brackets ds ++ post)))
        v = walkGroups pre ds v
  | _, [], _, _ => rfl
  | pre, d :: ds, hds, v => by
    have hlen : (pre ++ '[' :: d ++ [']']).length = pre.length + d.length + 2 := by simp; omega
    rw [indexOffsetsFrom_brackets_cons (hds d (List.mem_cons_self _ _)), List.foldlM_cons,
      show pre ++ (brackets (d :: ds) ++ post) = (pre ++ '[' :: d ++ [']']) ++ (brackets ds ++ post)
        by simp [brackets], walkIndex_group, ← hlen, walkGroups]
    simp only [foldlM_walkIndex_brackets post _ ds (fun d' h => hds d' (List.mem_cons_of_mem _ h))]

theorem walkSegment_of_offsets {index : List Char} {o : Nat × Nat} {os : List (Nat × Nat)}
    (h : getIndexOffsets index = o :: os) (v : Value) :
    walkSegment v index = (o :: os).foldlM (walkIndex index) v := by
  rw [walkSegment, h]

theorem walkSegment_key {k : List Char} (hk : IsKey k) (v : Value) :
    walkSegment v k = orParseError (v.getKey k) := by
  rw [walkSegment, hk.2]
  rfl

/-- **The loop on an indexed segment** is `walkGroups` from its key. -/
theorem walkSegment_indexed {k : List Char} {ds : List (List Char)}
    (h : (Segment.indexed k ds).WellFormed) (v : Value) :
    walkSegment v (Segment.indexed k ds).render = walkGroups k ds v := by
  obtain ⟨hk, hne, hds⟩ := h
  obtain ⟨d, ds, rfl⟩ := List.exists_cons_of_ne_nil hne
  have hoff : getIndexOffsets (k ++ brackets (d :: ds)) =
      indexOffsetsFrom (brackets (d :: ds)) k.length := by
    rw [getIndexOffsets, indexOffsetsFrom_append _ (digitsBeforeClose_brackets _),
      show indexOffsetsFrom k 0 = [] from hk.2, List.nil_append, Nat.zero_add]
  have hd := hds d (List.mem_cons_self _ _)
  rw [Segment.render, walkSegment_of_offsets (hoff.trans (indexOffsetsFrom_brackets_cons hd _ _)),
    ← indexOffsetsFrom_brackets_cons hd]
  simpa using foldlM_walkIndex_brackets [] k _ hds v

/-! ## §5. Against the reference evaluator. -/

/-- One group, its index within `usize`, is the reference evaluator's segment. -/
theorem walkGroups_single {k d : List Char} (hd : IsIndex d) (hle : digitsValue d ≤ usizeMax)
    (v : Value) : walkGroups k [d] v = orParseError (refSegment v (.indexed k [d])) := by
  simp only [walkGroups, walkGroup, parseUsize_of_digits hd.1 hd.2, if_pos hle, refSegment,
    List.foldlM_cons, List.foldlM_nil, bind_pure]
  split
  · rfl
  · cases v.getKey k <;> rfl

/-- **A segment with at most one index, within `usize`, is the reference evaluator's.** -/
theorem walkSegment_render {seg : Segment} (hwf : seg.WellFormed) (hone : seg.indices.length ≤ 1)
    (hle : ∀ d ∈ seg.indices, digitsValue d ≤ usizeMax) (w : Value) :
    walkSegment w seg.render = orParseError (refSegment w seg) := by
  cases seg with
  | key k => exact walkSegment_key hwf w
  | indexed k ds =>
    obtain ⟨d, rfl⟩ : ∃ d, ds = [d] := List.length_eq_one.mp
      (by have := List.length_pos.mpr hwf.2.1; simp only [Segment.indices] at hone; omega)
    rw [walkSegment_indexed hwf, walkGroups_single (hwf.2.2 d (List.mem_singleton_self d))
      (hle d (List.mem_singleton_self d))]

/-- A walk of lookups fails with a parse error exactly where the lookups find nothing. -/
theorem foldlM_walkSegment_render : ∀ (segs : List Segment),
    (∀ seg ∈ segs, ∀ w, walkSegment w seg.render = orParseError (refSegment w seg)) →
      ∀ v, (segs.map Segment.render).foldlM walkSegment v = orParseError (refEval v segs)
  | [], _, _ => rfl
  | s :: ss, h, v => by
    rw [List.map_cons, List.foldlM_cons, h s (List.mem_cons_self _ _), refEval, List.foldlM_cons]
    cases refSegment v s with
    | none => rfl
    | some w => exact foldlM_walkSegment_render ss (fun seg hs => h seg (List.mem_cons_of_mem _ hs)) w

/-- **On paths with at most one index per segment, each within `usize`, the code is the
    reference evaluator**: a parse error exactly when the reference finds no value, and
    otherwise the price of the value it selects. -/
theorem fetchPriceFromJson_eq_refEval (fromStr : List Char → Option Value) {body : List Char}
    {v : Value} (hv : fromStr body = some v) (s : Segment) (ss : List Segment)
    (hsegs : ∀ seg ∈ s :: ss, seg.WellFormed ∧ seg.indices.length ≤ 1 ∧
      ∀ d ∈ seg.indices, digitsValue d ≤ usizeMax) :
    (fetchPriceFromJson fromStr body (renderPath s ss)).run =
      some (match refEval v (s :: ss) with
        | none => .error .jsonParseError
        | some w => priceOfValue w) := by
  simp only [fetchPriceFromJson, hv, pure_bind,
    splitChar_renderPath s ss (fun seg h => dot_not_mem_render (hsegs seg h).1),
    foldlM_walkSegment_render _ fun seg h => walkSegment_render (hsegs seg h).1 (hsegs seg h).2.1
      (hsegs seg h).2.2]
  cases refEval v (s :: ss) with
  | none => rfl
  | some w =>
    simp only [orParseError, pure_bind]
    cases priceOfValue w <;> rfl

/-- The body `{"a":[[1,2]]}`. -/
def nestedBody : List Char := "\x7b\"a\":[[1,2]]\x7d".toList

/-- The value `serde_json` reads from `nestedBody`. -/
def nestedValue : Value :=
  .object [("a".toList, .array [.array [.number ⟨1, 0⟩, .number ⟨2, 0⟩]])]

/-- **A second index is a parse error where the reference finds a value.**  The path `a[0][1]`
    is in the grammar, and the reference selects `2` from `{"a":[[1,2]]}`; the loop looks up
    the key `a[0]` in the array `[1,2]` before the index `[1]`, finds nothing, and returns
    `JsonParseError`. -/
theorem fetchPriceFromJson_second_index_parse_error (fromStr : List Char → Option Value)
    (hbody : fromStr nestedBody = some nestedValue) :
    (Segment.indexed "a".toList ["0".toList, "1".toList]).WellFormed ∧
      renderPath (.indexed "a".toList ["0".toList, "1".toList]) [] = "a[0][1]".toList ∧
      refEval nestedValue [.indexed "a".toList ["0".toList, "1".toList]] =
        some (.number ⟨2, 0⟩) ∧
      (fetchPriceFromJson fromStr nestedBody "a[0][1]".toList).run =
        some (.error .jsonParseError) := by
  refine ⟨by decide, rfl, rfl, ?_⟩
  simp only [fetchPriceFromJson, hbody]
  rfl

theorem fetchPriceFromJson_second_index_parse_error_serde :
    (fun s => if s = nestedBody then some nestedValue else none) nestedBody = some nestedValue ∧
      (Segment.indexed "a".toList ["0".toList, "1".toList]).WellFormed ∧
      renderPath (.indexed "a".toList ["0".toList, "1".toList]) [] = "a[0][1]".toList ∧
      refEval nestedValue [.indexed "a".toList ["0".toList, "1".toList]] =
        some (.number ⟨2, 0⟩) ∧
      (fetchPriceFromJson (fun s => if s = nestedBody then some nestedValue else none) nestedBody
        "a[0][1]".toList).run = some (.error .jsonParseError) :=
  ⟨if_pos rfl, fetchPriceFromJson_second_index_parse_error _ (if_pos rfl)⟩

end EqOracle.PriceSource
