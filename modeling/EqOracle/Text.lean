/-
  EqOracle.Text
  ─────────────
  **THE `str` FUNCTIONS THE PRICE SOURCE USES, ON LISTS OF CHARACTERS.**

  Lean's `String` functions are defined by well-founded recursion on byte positions and do not
  compute in the kernel, so the development keeps text as `List Char` and gives each Rust
  function it calls a structural definition with the library's meaning:

    * `splitChar`   — `str::split(c)`: `n` separators give `n + 1` pieces, empty ones kept;
    * `trim`        — `str::trim`, with `char::is_whitespace` (the `White_Space` property);
    * `toLowercase`,
      `toUppercase` — `str::to_lowercase` / `to_uppercase` on ASCII letters (other characters
                      are left as they are: the Unicode case tables are not modelled);
    * `isInfix`     — `str::contains(&str)`, `str::find(..).is_some()`;
    * `replacePlaceholder` — `str::replace("{$}", s)`;
    * `parseUsize`,
      `parseU32`    — `usize::from_str` and `u32::from_str`, one parse with the type's largest
                      value as parameter; `usize` is taken to be the `wasm32` runtime's.
-/
import Mathlib.Algebra.Group.Nat.Basic
import Mathlib.Data.List.Basic
import Mathlib.Data.Nat.Digits

namespace EqOracle.Text

/-- `str::split(c)`. -/
def splitChar (c : Char) : List Char → List (List Char)
  | [] => [[]]
  | x :: xs =>
    if x = c then [] :: splitChar c xs
    else
      match splitChar c xs with
      | piece :: pieces => (x :: piece) :: pieces
      | [] => [[x]]

theorem splitChar_ne_nil (c : Char) (s : List Char) : splitChar c s ≠ [] := by
  cases s with
  | nil => simp [splitChar]
  | cons x xs =>
    unfold splitChar
    split
    · simp
    · split <;> simp

/-- `char::is_whitespace`: the characters with the Unicode `White_Space` property. -/
def isWhitespace (c : Char) : Bool :=
  c.val ∈ [0x09, 0x0A, 0x0B, 0x0C, 0x0D, 0x20, 0x85, 0xA0, 0x1680, 0x2028, 0x2029, 0x202F,
    0x205F, 0x3000] ∨ (0x2000 ≤ c.val ∧ c.val ≤ 0x200A)

/-- `str::trim`. -/
def trim (s : List Char) : List Char :=
  ((s.dropWhile isWhitespace).reverse.dropWhile isWhitespace).reverse

/-- `char::to_ascii_lowercase`, which `to_lowercase` agrees with on ASCII. -/
def lowerChar (c : Char) : Char :=
  if 'A' ≤ c ∧ c ≤ 'Z' then Char.ofNat (c.toNat + 32) else c

/-- `char::to_ascii_uppercase`. -/
def upperChar (c : Char) : Char :=
  if 'a' ≤ c ∧ c ≤ 'z' then Char.ofNat (c.toNat - 32) else c

/-- `str::to_lowercase`, on ASCII letters. -/
def toLowercase (s : List Char) : List Char := s.map lowerChar

/-- `str::to_uppercase`, on ASCII letters. -/
def toUppercase (s : List Char) : List Char := s.map upperChar

/-- `str::contains(p)`. -/
def isInfix (p : List Char) : List Char → Bool
  | [] => p.isEmpty
  | c :: s => p.isPrefixOf (c :: s) || isInfix p s

/-- `str::replace("{$}", sym)`: every `{$}`, left to right. -/
def replacePlaceholder (sym : List Char) : List Char → List Char
  | '{' :: '$' :: '}' :: rest => sym ++ replacePlaceholder sym rest
  | c :: rest => c :: replacePlaceholder sym rest
  | [] => []

/-- `usize::MAX` of the `wasm32` runtime the offchain worker runs; a native 64-bit worker
    has `2 ^ 64 - 1`.  Only `parseUsize` reads it. -/
def usizeMax : Nat := 2 ^ 32 - 1

/-- `u32::MAX`. -/
def u32Max : Nat := 2 ^ 32 - 1

/-- The value of a run of ASCII digits. -/
def digitsValue (ds : List Char) : Nat :=
  ds.foldl (fun acc d => acc * 10 + (d.toNat - '0'.toNat)) 0

/-- `FromStr` of an unsigned integer type whose largest value is `max`: an optional `+`, then
    one or more ASCII digits, of value at most `max`. -/
def parseUnsigned (max : Nat) (s : List Char) : Option Nat :=
  let ds := match s with
    | '+' :: ds => ds
    | ds => ds
  if ds ≠ [] ∧ ds.all Char.isDigit ∧ digitsValue ds ≤ max then some (digitsValue ds)
  else none

/-- `usize::from_str`. -/
def parseUsize (s : List Char) : Option Nat := parseUnsigned usizeMax s

/-- `u32::from_str`. -/
def parseU32 (s : List Char) : Option Nat := parseUnsigned u32Max s

/-- `ToString for u32`: the decimal digits, most significant first, `"0"` for zero. -/
def u32ToString (n : Nat) : List Char := Nat.toDigits 10 n

/-! ## Decimal round trip. -/

theorem digitsValue_append_singleton (ds : List Char) (c : Char) :
    digitsValue (ds ++ [c]) = digitsValue ds * 10 + (c.toNat - '0'.toNat) :=
  List.foldl_append ..

theorem digitChar_of_lt_ten : ∀ d, d < 10 →
    (Nat.digitChar d).isDigit = true ∧ (Nat.digitChar d).toNat - '0'.toNat = d := by
  decide

/-- `Nat.toDigitsCore` with enough fuel puts the digits of `n` in front of its accumulator. -/
theorem toDigitsCore_eq (f : Nat) : ∀ n ds, n < f → ∃ digs, Nat.toDigitsCore 10 f n ds = digs ++ ds ∧
    digs ≠ [] ∧ digs.all Char.isDigit = true ∧ digitsValue digs = n := by
  induction f with
  | zero => intro n ds h; omega
  | succ f ih =>
    intro n ds h
    have hd := digitChar_of_lt_ten (n % 10) (Nat.mod_lt _ (by decide))
    by_cases hn : n / 10 = 0
    · refine ⟨[Nat.digitChar (n % 10)], by simp [Nat.toDigitsCore, hn], by simp, by simp [hd.1], ?_⟩
      show 0 * 10 + _ = n
      omega
    · obtain ⟨digs, heq, hne, hall, hval⟩ := ih (n / 10) (Nat.digitChar (n % 10) :: ds) (by omega)
      refine ⟨digs ++ [Nat.digitChar (n % 10)], ?_, by simp, by simp [hall, hd.1], ?_⟩
      · simp only [Nat.toDigitsCore, hn, if_false, heq, List.append_assoc, List.singleton_append]
      · rw [digitsValue_append_singleton, hval, hd.2]
        omega

/-- A run of digits parses to its value when that value fits in the type. -/
theorem parseUnsigned_of_digits (max : Nat) {ds : List Char} (hne : ds ≠ [])
    (hall : ds.all Char.isDigit = true) :
    parseUnsigned max ds = if digitsValue ds ≤ max then some (digitsValue ds) else none := by
  obtain ⟨c, rest, rfl⟩ := List.exists_cons_of_ne_nil hne
  have hc : c ≠ '+' := by
    intro hc; subst hc; simp at hall
  have hm : (match c :: rest with | '+' :: ds => ds | ds => ds) = c :: rest := by
    split
    · rename_i h'; exact absurd (List.cons.inj h').1 hc
    · rfl
  simp only [parseUnsigned, hm]
  simp [hall]

theorem parseUsize_of_digits {ds : List Char} (hne : ds ≠ []) (hall : ds.all Char.isDigit = true) :
    parseUsize ds = if digitsValue ds ≤ usizeMax then some (digitsValue ds) else none :=
  parseUnsigned_of_digits usizeMax hne hall

theorem parseUnsigned_le {max : Nat} {s : List Char} {n : Nat} (h : parseUnsigned max s = some n) :
    n ≤ max := by
  simp only [parseUnsigned] at h
  split at h
  · cases h; omega
  · cases h

/-- **`u32::to_string` then `u32::from_str` gives the number back.** -/
theorem parseU32_u32ToString {n : Nat} (h : n ≤ u32Max) : parseU32 (u32ToString n) = some n := by
  obtain ⟨digs, heq, hne, hall, hval⟩ := toDigitsCore_eq (n + 1) n [] (Nat.lt_succ_self n)
  rw [List.append_nil] at heq
  simp only [parseU32, u32ToString, Nat.toDigits, heq, parseUnsigned_of_digits u32Max hne hall, hval,
    if_pos h]

theorem mem_u32ToString {n : Nat} {c : Char} (h : c ∈ u32ToString n) : c.isDigit = true := by
  obtain ⟨digs, heq, -, hall, -⟩ := toDigitsCore_eq (n + 1) n [] (Nat.lt_succ_self n)
  rw [List.append_nil] at heq
  simp only [u32ToString, Nat.toDigits, heq] at h
  exact List.all_eq_true.mp hall c h

end EqOracle.Text
