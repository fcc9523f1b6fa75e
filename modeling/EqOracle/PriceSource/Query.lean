/-
  EqOracle.PriceSource.Query
  ──────────────────────────
  **THE QUERY `json(URL).PATH`: WHAT `fetch_price` ACCEPTS, AND HOW IT SPLITS IT.**

  `fetch_price` looks for the match of `\(.+\)\.` in the stored query (`get_url_offset`),
  takes the URL template from between the parentheses (`query[start + 1..end - 2]`) and the
  path template from after the dot (`query[end..]`).  The match is the leftmost one, and
  greedy: it ends at the last `).` of its line.

  The scan for `\)\.` reads one character ahead; `closeDotEnds_append` splits it over a
  concatenation whose second part does not start with `.`, so both results below are a few
  appends.

  Main results:
    * `getUrlOffset_eq_some` — what is accepted is well formed: a query `get_url_offset`
      accepts is `pre ++ "(" ++ URL ++ ")." ++ PATH` with a non-empty `URL` on one line, and the
      two templates `fetch_price` reads are `URL` and `PATH`;
    * `getUrlOffset_render` — the round trip: with no `(` before it and no `).` in the path,
      `fetch_price` splits `pre(URL).PATH` back into `URL` and `PATH`.
-/
import EqOracle.PriceSource.GetPrices

namespace EqOracle.PriceSource

open Text

/-! ## §1. The scan for `\)\.`. -/

/-- One character of the scan: an end when it is `)` before a `.`, then the rest of the line. -/
theorem closeDotEnds_cons (c : Char) (rest : List Char) (k : Nat) :
    closeDotEnds (c :: rest) k =
      (if c = ')' ∧ rest.head? = some '.' then [k + 2] else []) ++
        (if c = '\n' then [] else closeDotEnds rest (k + 1)) := by
  cases rest with
  | nil => simp [closeDotEnds]
  | cons d tl =>
    by_cases hc : c = ')'
    · by_cases hd : d = '.'
      · subst hc hd; simp [closeDotEnds]
      · subst hc; simp [closeDotEnds, hd]
    · simp [closeDotEnds, hc]

/-- The scan over `l₁ ++ l₂`, where `l₁` is on one line and `l₂` does not start with `.`: the
    ends in `l₁`, then those in `l₂` shifted by `l₁`'s length. -/
theorem closeDotEnds_append (l₂ : List Char) (hb : l₂.head? ≠ some '.') :
    ∀ (l₁ : List Char) (k : Nat), '\n' ∉ l₁ →
      closeDotEnds (l₁ ++ l₂) k = closeDotEnds l₁ k ++ closeDotEnds l₂ (k + l₁.length)
  | [], _, _ => rfl
  | c :: rest, k, hnl => by
    have hc : c ≠ '\n' := fun h => hnl (h ▸ List.mem_cons_self _ _)
    have hhead : (rest ++ l₂).head? = some '.' ↔ rest.head? = some '.' := by
      cases rest with
      | nil => simpa using hb
      | cons d tl => rfl
    simp only [List.cons_append, closeDotEnds_cons, hhead, if_neg hc,
      closeDotEnds_append l₂ hb rest (k + 1) (fun h => hnl (List.mem_cons_of_mem _ h)),
      List.length_cons, List.append_assoc, Nat.add_right_comm k 1, Nat.add_assoc k]

/-- A text without `).` has no end. -/
theorem closeDotEnds_eq_nil : ∀ {l : List Char}, isInfix ").".toList l = false → ∀ k, closeDotEnds l k = []
  | [], _, _ => rfl
  | c :: rest, h, k => by
    simp only [isInfix, Bool.or_eq_false_iff] at h
    have hnot : ¬(c = ')' ∧ rest.head? = some '.') := by
      rintro ⟨rfl, hd⟩
      obtain ⟨tl, rfl⟩ := List.head?_eq_some_iff.mp hd
      simp at h
    rw [closeDotEnds_cons, if_neg hnot, closeDotEnds_eq_nil h.2, ite_self, List.append_nil]

/-- Every end the scan reports is two past a `)` before a `.`, on the line it started on. -/
theorem mem_closeDotEnds : ∀ {l : List Char} {k e : Nat}, e ∈ closeDotEnds l k →
    ∃ a b, l = a ++ ')' :: '.' :: b ∧ '\n' ∉ a ∧ e = k + a.length + 2
  | [], _, _, h => by cases h
  | c :: rest, k, e, h => by
    rw [closeDotEnds_cons, List.mem_append] at h
    rcases h with h | h
    · split at h
      · rename_i hc
        obtain ⟨rfl, hd⟩ := hc
        obtain ⟨tl, rfl⟩ := List.head?_eq_some_iff.mp hd
        exact ⟨[], tl, rfl, List.not_mem_nil _, by simpa using h⟩
      · cases h
    · split at h
      · cases h
      · rename_i hc
        obtain ⟨a, b, rfl, hnl, rfl⟩ := mem_closeDotEnds h
        refine ⟨c :: a, b, rfl, ?_, by simp only [List.length_cons]; omega⟩
        simp only [List.mem_cons, not_or]
        exact ⟨Ne.symm hc, hnl⟩

/-! ## §2. The leftmost match. -/

/-- A character other than `(` starts no match. -/
theorem urlOffsetFrom_of_ne {c : Char} (hc : c ≠ '(') (rest : List Char) (i : Nat) :
    urlOffsetFrom (c :: rest) i = urlOffsetFrom rest (i + 1) := by
  simp only [urlOffsetFrom]
  split <;> simp_all

/-- At a `(` the match is tried; without one the search moves on. -/
theorem urlOffsetFrom_open (c₀ : Char) (rest i) :
    urlOffsetFrom ('(' :: c₀ :: rest) i =
      match (if c₀ = '\n' then none else (closeDotEnds rest 1).getLast?) with
      | some e => some (i, i + 1 + e)
      | none => urlOffsetFrom (c₀ :: rest) (i + 1) := rfl

/-- A prefix without `(` is skipped. -/
theorem urlOffsetFrom_append {pre : List Char} (hpre : '(' ∉ pre) (l : List Char) :
    ∀ i, urlOffsetFrom (pre ++ l) i = urlOffsetFrom l (i + pre.length) := by
  induction pre with
  | nil => intro i; rfl
  | cons c rest ih =>
    intro i
    simp only [List.mem_cons, not_or] at hpre
    rw [List.cons_append, urlOffsetFrom_of_ne (Ne.symm hpre.1), ih hpre.2, List.length_cons,
      Nat.add_right_comm, Nat.add_assoc]

/-- Every match is a `(`, a non-empty text on one line, and `).`. -/
theorem urlOffsetFrom_eq_some : ∀ {q : List Char} {i start stop : Nat},
    urlOffsetFrom q i = some (start, stop) →
      ∃ pre url path, q = pre ++ '(' :: url ++ ')' :: '.' :: path ∧ start = i + pre.length ∧
        stop = start + url.length + 3 ∧ url ≠ [] ∧ '\n' ∉ url
  | [], _, _, _, h => by cases h
  | c :: rest, i, start, stop, h => by
    by_cases hc : c = '('
    · subst hc
      cases rest with
      | nil => cases h
      | cons c₀ rest' =>
        rw [urlOffsetFrom_open] at h
        split at h
        · rename_i e he
          split at he
          · cases he
          · rename_i hc₀
            cases h
            obtain ⟨a, b, rfl, hnl, rfl⟩ := mem_closeDotEnds (List.mem_of_getLast?_eq_some he)
            refine ⟨[], c₀ :: a, b, rfl, rfl, ?_, List.cons_ne_nil _ _, ?_⟩
            · simp only [List.length_cons]; omega
            · simp only [List.mem_cons, not_or]
              exact ⟨Ne.symm hc₀, hnl⟩
        · obtain ⟨pre, url, path, hq, rfl, rfl, hurl, hnl⟩ := urlOffsetFrom_eq_some h
          exact ⟨'(' :: pre, url, path, by rw [hq]; rfl, by simp only [List.length_cons]; omega, rfl,
            hurl, hnl⟩
    · rw [urlOffsetFrom_of_ne hc] at h
      obtain ⟨pre, url, path, rfl, rfl, rfl, hurl, hnl⟩ := urlOffsetFrom_eq_some h
      exact ⟨c :: pre, url, path, rfl, by simp only [List.length_cons]; omega, rfl, hurl, hnl⟩

/-! ## §3. The templates `fetch_price` reads. -/

/-- The slices of `fetch_price` on `pre(URL).PATH`, at the offsets of its match. -/
theorem slice_render (pre url path : List Char) :
    slice (pre ++ '(' :: url ++ ')' :: '.' :: path) (pre.length + 1) (pre.length + url.length + 3 - 2) = url ∧
      (pre ++ '(' :: url ++ ')' :: '.' :: path).drop (pre.length + url.length + 3) = path := by
  have hurl : pre ++ '(' :: url ++ ')' :: '.' :: path = (pre ++ ['(']) ++ (url ++ ')' :: '.' :: path) := by
    simp
  have hpath : pre ++ '(' :: url ++ ')' :: '.' :: path = (pre ++ '(' :: url ++ [')', '.']) ++ path := by
    simp
  refine ⟨?_, by rw [hpath, List.drop_left' (by simp; omega)]⟩
  rw [slice, hurl, List.drop_left' (by simp), List.take_left' (by omega)]

/-- **What `fetch_price` accepts is well formed.**  A query `get_url_offset` accepts is
    `pre ++ "(" ++ URL ++ ")." ++ PATH`, with a non-empty `URL` on one line, and the templates
    `fetch_price` reads, `query[start + 1..end - 2]` and `query[end..]`, are `URL` and `PATH`. -/
theorem getUrlOffset_eq_some {query : List Char} {start stop : Nat}
    (h : getUrlOffset query = some (start, stop)) :
    ∃ pre url path, query = pre ++ '(' :: url ++ ')' :: '.' :: path ∧ start = pre.length ∧
      url ≠ [] ∧ '\n' ∉ url ∧ slice query (start + 1) (stop - 2) = url ∧ query.drop stop = path := by
  obtain ⟨pre, url, path, rfl, hs, rfl, hurl, hnl⟩ := urlOffsetFrom_eq_some h
  rw [Nat.zero_add] at hs
  subst hs
  exact ⟨pre, url, path, rfl, rfl, hurl, hnl, slice_render pre url path⟩

/-- The query of `JsonPriceSource`'s documentation: the URL template ends at `/USD` and the path
    is `result.price`. -/
theorem getUrlOffset_eq_some_docQuery :
    getUrlOffset docQuery = some (4, 42) ∧
      ∃ pre url path, docQuery = pre ++ '(' :: url ++ ')' :: '.' :: path ∧ 4 = pre.length ∧
        url ≠ [] ∧ '\n' ∉ url ∧ slice docQuery (4 + 1) (42 - 2) = url ∧ docQuery.drop 42 = path :=
  have h : getUrlOffset docQuery = some (4, 42) := by decide
  ⟨h, getUrlOffset_eq_some h⟩

/-- **The round trip of the query.**  For a prefix without `(`, a non-empty `URL` on one line
    and a `PATH` without `).`, `get_url_offset` matches `pre(URL).PATH` from its `(` to the `.`
    after `URL`, and `fetch_price` reads `URL` and `PATH` back. -/
theorem getUrlOffset_render {pre url path : List Char} (hpre : '(' ∉ pre) (hurl : url ≠ [])
    (hnl : '\n' ∉ url) (hpath : isInfix ").".toList path = false) :
    getUrlOffset (pre ++ '(' :: url ++ ')' :: '.' :: path) =
        some (pre.length, pre.length + url.length + 3) ∧
      slice (pre ++ '(' :: url ++ ')' :: '.' :: path) (pre.length + 1)
        (pre.length + url.length + 3 - 2) = url ∧
      (pre ++ '(' :: url ++ ')' :: '.' :: path).drop (pre.length + url.length + 3) = path := by
  refine ⟨?_, slice_render pre url path⟩
  obtain ⟨c₀, u, rfl⟩ := List.exists_cons_of_ne_nil hurl
  have hc₀ : c₀ ≠ '\n' := fun h => hnl (h ▸ List.mem_cons_self _ _)
  have hends : closeDotEnds (u ++ ')' :: '.' :: path) 1 = closeDotEnds u 1 ++ [u.length + 3] := by
    rw [closeDotEnds_append _ (by simp) u 1 (fun h => hnl (List.mem_cons_of_mem _ h)),
      closeDotEnds_cons, closeDotEnds_cons, closeDotEnds_eq_nil hpath]
    simp
    omega
  rw [getUrlOffset, List.append_assoc, urlOffsetFrom_append hpre, List.cons_append, List.cons_append,
    urlOffsetFrom_open, if_neg hc₀, hends, List.getLast?_concat]
  simp only [List.length_cons, Option.some.injEq, Prod.mk.injEq]
  omega

/-- The documented query, put together from its URL and path templates. -/
theorem getUrlOffset_render_docQuery :
    '(' ∉ "json".toList ∧ "https://ftx.com/api/markets/\x7b$\x7d/USD".toList ≠ [] ∧
      '\n' ∉ "https://ftx.com/api/markets/\x7b$\x7d/USD".toList ∧
      isInfix ").".toList "result.price".toList = false ∧
      getUrlOffset ("json".toList ++ '(' :: "https://ftx.com/api/markets/\x7b$\x7d/USD".toList ++
          ')' :: '.' :: "result.price".toList) = some (4, 42) ∧
      slice ("json".toList ++ '(' :: "https://ftx.com/api/markets/\x7b$\x7d/USD".toList ++
          ')' :: '.' :: "result.price".toList) (4 + 1) (42 - 2) =
        "https://ftx.com/api/markets/\x7b$\x7d/USD".toList ∧
      ("json".toList ++ '(' :: "https://ftx.com/api/markets/\x7b$\x7d/USD".toList ++
          ')' :: '.' :: "result.price".toList).drop 42 = "result.price".toList :=
  ⟨by decide, by decide, by decide, by decide,
    getUrlOffset_render (by decide) (by decide) (by decide) (by decide)⟩

end EqOracle.PriceSource
