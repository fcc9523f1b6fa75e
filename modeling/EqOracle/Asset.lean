/-
  EqOracle.Asset
  ──────────────
  **`primitives::Asset`: A TICKER PACKED INTO AN `u64`.**

  An asset id is an `u64` whose big-endian bytes are the ticker, left-padded with zero bytes:
  `from_bytes` checks the length (at most eight bytes), lowercases ASCII letters and rejects
  anything but ASCII digits and lowercase letters (`lower_case`), and packs the bytes;
  `to_str_bytes` drops the zero bytes again.  `AsSymbol::get_symbol` decodes those bytes as
  UTF-8 (`String::from_utf8`, modelled by `fromUtf8` after the Unicode standard's table of
  well-formed byte sequences), and `get_query_symbol` renames three tickers for Kraken.

  Strings are lists of characters throughout the development, so that every function here
  computes in the kernel.

  Main results:
    * `fromBytes_isOk_iff` — `from_bytes` accepts exactly the alphanumeric strings of at most
      eight bytes;
    * `getQuerySymbol_collision` — two assets `from_bytes` builds share a query symbol, and so
      a URL, only through Kraken's renames: `eth` and `xethz`, `btc` and `xxbtz`, `usdt` and
      `usdtz`.
-/
import Mathlib.Algebra.Group.Nat.Basic
import Mathlib.Data.List.Basic

namespace EqOracle

/-! ## §1. Bytes. -/

/-- `u64::to_be_bytes`. -/
def toBeBytes (x : UInt64) : List UInt8 :=
  [7, 6, 5, 4, 3, 2, 1, 0].map fun k => UInt8.ofNat (x.toNat / 256 ^ k)

/-- `u64::from_be_bytes` of eight bytes. -/
def fromBeBytes (bytes : List UInt8) : UInt64 :=
  UInt64.ofNat (bytes.foldl (fun acc b => acc * 256 + b.toNat) 0)

/-- `String::from_utf8`: the characters of a well-formed UTF-8 byte sequence (Unicode,
    Table 3-7), `none` on the first ill-formed one. -/
def fromUtf8 : List UInt8 → Option (List Char)
  | [] => some []
  | b0 :: tl =>
    let cont (b : UInt8) : Bool := 0x80 ≤ b.toNat ∧ b.toNat ≤ 0xBF
    if b0.toNat < 0x80 then (Char.ofNat b0.toNat :: ·) <$> fromUtf8 tl
    else if 0xC2 ≤ b0.toNat ∧ b0.toNat ≤ 0xDF then
      match tl with
      | b1 :: tl =>
        if cont b1 then
          (Char.ofNat ((b0.toNat % 0x20) * 0x40 + b1.toNat % 0x40) :: ·) <$> fromUtf8 tl
        else none
      | [] => none
    else if 0xE0 ≤ b0.toNat ∧ b0.toNat ≤ 0xEF then
      match tl with
      | b1 :: b2 :: tl =>
        let lo := if b0.toNat = 0xE0 then 0xA0 else 0x80
        let hi := if b0.toNat = 0xED then 0x9F else 0xBF
        if lo ≤ b1.toNat ∧ b1.toNat ≤ hi ∧ cont b2 then
          (Char.ofNat ((b0.toNat % 0x10) * 0x1000 + (b1.toNat % 0x40) * 0x40 + b2.toNat % 0x40) :: ·)
            <$> fromUtf8 tl
        else none
      | _ => none
    else if 0xF0 ≤ b0.toNat ∧ b0.toNat ≤ 0xF4 then
      match tl with
      | b1 :: b2 :: b3 :: tl =>
        let lo := if b0.toNat = 0xF0 then 0x90 else 0x80
        let hi := if b0.toNat = 0xF4 then 0x8F else 0xBF
        if lo ≤ b1.toNat ∧ b1.toNat ≤ hi ∧ cont b2 ∧ cont b3 then
          (Char.ofNat ((b0.toNat % 0x08) * 0x40000 + (b1.toNat % 0x40) * 0x1000 +
            (b2.toNat % 0x40) * 0x40 + b3.toNat % 0x40) :: ·) <$> fromUtf8 tl
        else none
      | _ => none
    else none

/-! ## §2. `Asset`. -/

/-- `AssetError`. -/
inductive AssetError where
  | debtWeightNegative
  | debtWeightMoreThanOne
  | assetNameWrongLength
  | assetNameWrongSymbols
  | priceStepNegative
  deriving DecidableEq

/-- `Asset(pub u64)`. -/
structure Asset where
  id : UInt64
  deriving DecidableEq

namespace Asset

/-- `SIZE_OF_ASSET_ID_INNER`. -/
def sizeOfAssetIdInner : Nat := 8

/-- `lower_case`: lowercase the ASCII uppercase letters; fail at the first byte that is then
    neither an ASCII digit nor a lowercase letter. -/
def lowerCase : List UInt8 → Option (List UInt8)
  | [] => some []
  | byte :: rest =>
    let byte := if 0x41 ≤ byte.toNat ∧ byte.toNat ≤ 0x5A then byte + 0x20 else byte
    if (0x30 ≤ byte.toNat ∧ byte.toNat ≤ 0x39) ∨ (0x61 ≤ byte.toNat ∧ byte.toNat ≤ 0x7A) then
      (byte :: ·) <$> lowerCase rest
    else none

/-- `from_bytes`. -/
def fromBytes (asset : List UInt8) : Except AssetError Asset :=
  if asset.length > sizeOfAssetIdInner then .error .assetNameWrongLength
  else
    match lowerCase asset with
    | none => .error .assetNameWrongSymbols
    | some asset =>
      .ok ⟨fromBeBytes (List.replicate (sizeOfAssetIdInner - asset.length) 0 ++ asset)⟩

/-- `to_str_bytes`: the big-endian bytes without the zero ones. -/
def toStrBytes (a : Asset) : List UInt8 := (toBeBytes a.id).filter (· ≠ 0)

/-- `AsSymbol::get_symbol`. -/
def getSymbol (a : Asset) : Option (List Char) := fromUtf8 a.toStrBytes

/-- `AsSymbol::get_query_symbol`: Kraken's names for three tickers. -/
def getQuerySymbol (a : Asset) (isKraken : Bool) : Option (List Char) :=
  a.getSymbol.map fun symbol =>
    if isKraken ∧ symbol = "eth".toList then "xethz".toList
    else if isKraken ∧ symbol = "btc".toList then "xxbtz".toList
    else if isKraken ∧ symbol = "usdt".toList then "usdtz".toList
    else symbol

end Asset

/-- `primitives::known::EQ`. -/
def Asset.eq : Asset := ⟨0x6571⟩

example : Asset.eq.getSymbol = some "eq".toList := by decide

/-- The trait `AsSymbol`, for code generic over the asset type. -/
structure AsSymbol (AssetId : Type) where
  getSymbol : AssetId → Option (List Char)
  getQuerySymbol : AssetId → Bool → Option (List Char)

/-- `impl AsSymbol for Asset`. -/
def Asset.asSymbol : AsSymbol Asset := ⟨Asset.getSymbol, Asset.getQuerySymbol⟩

/-! ## §3. Bytes and their numeric value. -/

theorem UInt8.toNat_ofNat_eq_mod (n : Nat) : (UInt8.ofNat n).toNat = n % 256 :=
  BitVec.toNat_ofNat _ _

theorem UInt64.toNat_ofNat_eq_mod (n : Nat) : (UInt64.ofNat n).toNat = n % 2 ^ 64 :=
  BitVec.toNat_ofNat _ _

theorem UInt8.toNat_add_eq_mod (a b : UInt8) : (a + b).toNat = (a.toNat + b.toNat) % 256 :=
  BitVec.toNat_add _ _

theorem UInt8.toNat_lt_256 (b : UInt8) : b.toNat < 256 := b.toNat_lt_size

/-- The number whose big-endian base-256 digits are the bytes, after a prefix `acc`. -/
theorem foldl_bytes_append (acc : Nat) (l : List UInt8) (b : UInt8) :
    (l ++ [b]).foldl (fun acc b => acc * 256 + b.toNat) acc =
      l.foldl (fun acc b => acc * 256 + b.toNat) acc * 256 + b.toNat :=
  List.foldl_append ..

theorem foldl_bytes_lt (l : List UInt8) : l.foldl (fun acc b => acc * 256 + b.toNat) 0 < 256 ^ l.length := by
  induction l using List.reverseRecOn with
  | nil => decide
  | append_singleton l b ih =>
    rw [foldl_bytes_append, List.length_append, List.length_singleton, Nat.pow_succ]
    have := UInt8.toNat_lt_256 b
    omega

/-- **Byte `k` from the end** is digit `k` of the value. -/
theorem foldl_bytes_digit (l : List UInt8) (k : Nat) :
    l.foldl (fun acc b => acc * 256 + b.toNat) 0 / 256 ^ k % 256 = (l.reverse.getD k 0).toNat := by
  induction l using List.reverseRecOn generalizing k with
  | nil => simp
  | append_singleton l b ih =>
    rw [foldl_bytes_append, List.reverse_append, List.reverse_singleton, List.singleton_append]
    have hb := UInt8.toNat_lt_256 b
    cases k with
    | zero => simp only [Nat.pow_zero, Nat.div_one, List.getD_cons_zero]; omega
    | succ k =>
      rw [List.getD_cons_succ, ← ih k, Nat.pow_succ, Nat.mul_comm (256 ^ k), ← Nat.div_div_eq_div_mul]
      congr 2
      omega

/-- Reading bytes back by their distance from the end gives the list again. -/
theorem map_reverse_range_getD (l : List UInt8) :
    (List.range l.length).reverse.map (fun k => l.reverse.getD k 0) = l := by
  induction l using List.reverseRecOn with
  | nil => rfl
  | append_singleton l b ih =>
    conv => rhs; rw [← ih]
    simp only [List.length_append, List.length_singleton, List.range_succ_eq_map,
      List.reverse_cons, List.reverse_append, List.reverse_singleton, List.singleton_append,
      List.map_append, List.map_reverse, List.map_map, List.map_cons, List.map_nil,
      List.getD_cons_zero]
    simp [Function.comp_def, List.getD_cons_succ]

/-- **The `u64` big-endian round trip**: `to_be_bytes(from_be_bytes(b)) = b`. -/
theorem toBeBytes_fromBeBytes {l : List UInt8} (hl : l.length = 8) : toBeBytes (fromBeBytes l) = l := by
  have hlt := foldl_bytes_lt l
  rw [hl] at hlt
  have hval : (fromBeBytes l).toNat = l.foldl (fun acc b => acc * 256 + b.toNat) 0 := by
    rw [fromBeBytes, UInt64.toNat_ofNat_eq_mod, Nat.mod_eq_of_lt (by simpa using hlt)]
  conv => rhs; rw [← map_reverse_range_getD l]
  rw [hl]
  refine List.map_congr_left fun k _ => UInt8.toNat.inj ?_
  rw [UInt8.toNat_ofNat_eq_mod, hval, foldl_bytes_digit]

/-- A one-byte (ASCII) sequence.  Lean cannot generate the equation lemmas of `fromUtf8` (its
    match is too large), so the step is read off the recursor. -/
theorem fromUtf8_cons_of_lt {b : UInt8} (l : List UInt8) (h : b.toNat < 0x80) :
    fromUtf8 (b :: l) = (Char.ofNat b.toNat :: ·) <$> fromUtf8 l := by
  delta fromUtf8
  dsimp only [List.brecOn, List.rec]
  rw [if_pos h]

/-- **ASCII bytes decode one character each.** -/
theorem fromUtf8_of_ascii : ∀ {l : List UInt8}, (∀ b ∈ l, b.toNat < 0x80) →
    fromUtf8 l = some (l.map fun b => Char.ofNat b.toNat)
  | [], _ => rfl
  | b :: l, h => by
    rw [fromUtf8_cons_of_lt l (h b (List.mem_cons_self _ _)),
      fromUtf8_of_ascii fun x hx => h x (List.mem_cons_of_mem _ hx)]
    rfl

/-! ## §4. Which byte strings `from_bytes` accepts. -/

/-- `u8::is_ascii_alphanumeric`. -/
def isAsciiAlphanumeric (b : UInt8) : Bool :=
  (0x30 ≤ b.toNat ∧ b.toNat ≤ 0x39) ∨ (0x41 ≤ b.toNat ∧ b.toNat ≤ 0x5A) ∨
    (0x61 ≤ b.toNat ∧ b.toNat ≤ 0x7A)

/-- `u8::to_ascii_lowercase`, the step `lower_case` applies to each byte. -/
def toAsciiLowercase (b : UInt8) : UInt8 :=
  if 0x41 ≤ b.toNat ∧ b.toNat ≤ 0x5A then b + 0x20 else b

theorem toNat_toAsciiLowercase (b : UInt8) :
    (toAsciiLowercase b).toNat =
      if 0x41 ≤ b.toNat ∧ b.toNat ≤ 0x5A then b.toNat + 0x20 else b.toNat := by
  unfold toAsciiLowercase
  split
  · rw [UInt8.toNat_add_eq_mod]; show (b.toNat + 32) % 256 = _; omega
  · rfl

/-- After lowering, `lower_case`'s test (a digit or a lowercase letter) is
    `is_ascii_alphanumeric` of the original byte. -/
theorem lowered_ok_iff (b : UInt8) :
    ((0x30 ≤ (toAsciiLowercase b).toNat ∧ (toAsciiLowercase b).toNat ≤ 0x39) ∨
      (0x61 ≤ (toAsciiLowercase b).toNat ∧ (toAsciiLowercase b).toNat ≤ 0x7A)) ↔
      isAsciiAlphanumeric b = true := by
  rw [toNat_toAsciiLowercase]
  simp only [isAsciiAlphanumeric, decide_eq_true_eq]
  split <;> omega

namespace Asset

/-- `lower_case` succeeds exactly on alphanumeric strings, and lowercases them. -/
theorem lowerCase_eq (s : List UInt8) :
    lowerCase s = if s.all isAsciiAlphanumeric then some (s.map toAsciiLowercase) else none := by
  induction s with
  | nil => rfl
  | cons b s ih =>
    show (if (0x30 ≤ (toAsciiLowercase b).toNat ∧ (toAsciiLowercase b).toNat ≤ 0x39) ∨
        (0x61 ≤ (toAsciiLowercase b).toNat ∧ (toAsciiLowercase b).toNat ≤ 0x7A) then
      (toAsciiLowercase b :: ·) <$> lowerCase s else none) = _
    rw [ih]
    by_cases hb : isAsciiAlphanumeric b = true
    · rw [if_pos ((lowered_ok_iff b).mpr hb)]
      by_cases hs : s.all isAsciiAlphanumeric = true <;> simp [hb, hs]
    · rw [if_neg (mt (lowered_ok_iff b).mp hb)]
      simp [hb]

/-- `from_bytes` in one piece: the length check, then the symbol check, then the packing. -/
theorem fromBytes_eq (s : List UInt8) :
    fromBytes s =
      if 8 < s.length then .error .assetNameWrongLength
      else if s.all isAsciiAlphanumeric then
        .ok ⟨fromBeBytes (List.replicate (8 - s.length) 0 ++ s.map toAsciiLowercase)⟩
      else .error .assetNameWrongSymbols := by
  unfold fromBytes sizeOfAssetIdInner
  rw [lowerCase_eq]
  by_cases hl : 8 < s.length
  · rw [if_pos hl, if_pos hl]
  · rw [if_neg hl, if_neg hl]
    by_cases hs : s.all isAsciiAlphanumeric = true
    · simp only [hs, if_true, List.length_map]
    · simp only [hs]; rfl

/-- The slice `saturated[len..]` that `try_into` turns into `[u8; 8]` has eight bytes, so its
    `expect` never fires, and it is the zero padding followed by the lowered bytes. -/
theorem saturated_slice {asset : List UInt8} (h : asset.length ≤ 8) :
    (List.replicate 8 0 ++ asset).drop asset.length = List.replicate (8 - asset.length) 0 ++ asset ∧
      ((List.replicate 8 0 ++ asset).drop asset.length).length = 8 := by
  have hd : (List.replicate 8 (0 : UInt8) ++ asset).drop asset.length =
      List.replicate (8 - asset.length) 0 ++ asset := by
    rw [List.drop_append_of_le_length (by simpa using h), List.drop_replicate]
  exact ⟨hd, by rw [hd]; simp; omega⟩

/-- **`from_bytes` accepts exactly the alphanumeric strings of at most eight bytes.** -/
theorem fromBytes_isOk_iff (s : List UInt8) :
    (∃ a, fromBytes s = .ok a) ↔ s.length ≤ 8 ∧ s.all isAsciiAlphanumeric = true := by
  rw [fromBytes_eq]
  by_cases hl : 8 < s.length
  · simp [hl]
  · by_cases hs : s.all isAsciiAlphanumeric = true
    · simp [hl, hs]; omega
    · simp [hl, hs]

theorem fromBytes_of_length_gt {s : List UInt8} (h : 8 < s.length) :
    fromBytes s = .error .assetNameWrongLength := by
  rw [fromBytes_eq, if_pos h]

theorem fromBytes_of_not_alphanumeric {s : List UInt8} (h : s.length ≤ 8)
    (hs : ∃ b ∈ s, isAsciiAlphanumeric b = false) :
    fromBytes s = .error .assetNameWrongSymbols := by
  obtain ⟨b, hb, hnb⟩ := hs
  have : s.all isAsciiAlphanumeric = false := List.all_eq_false.mpr ⟨b, hb, by simp [hnb]⟩
  rw [fromBytes_eq, if_neg (by omega), this]
  rfl

end Asset

/-! ## §5. The round trip `from_bytes` ∘ `to_str_bytes`. -/

/-- A lowered alphanumeric byte is a non-zero ASCII digit or lowercase letter, and lowering it
    again changes nothing. -/
theorem toAsciiLowercase_of_alphanumeric {b : UInt8} (hb : isAsciiAlphanumeric b = true) :
    toAsciiLowercase b ≠ 0 ∧ (toAsciiLowercase b).toNat < 0x80 ∧
      isAsciiAlphanumeric (toAsciiLowercase b) = true ∧
      toAsciiLowercase (toAsciiLowercase b) = toAsciiLowercase b := by
  have h := toNat_toAsciiLowercase b
  have h2 := toNat_toAsciiLowercase (toAsciiLowercase b)
  simp only [isAsciiAlphanumeric, decide_eq_true_eq] at hb ⊢
  refine ⟨fun h0 => ?_, ?_, ?_, UInt8.toNat.inj ?_⟩
  · have : (toAsciiLowercase b).toNat = 0 := by rw [h0]; rfl
    split at h <;> omega
  all_goals split at h <;> split at h2 <;> omega

namespace Asset

/-- `to_str_bytes` of a packed string of non-zero bytes gives the string back. -/
theorem toStrBytes_packed {l : List UInt8} (hlen : l.length ≤ 8) (hl : ∀ b ∈ l, b ≠ 0) :
    toStrBytes ⟨fromBeBytes (List.replicate (8 - l.length) 0 ++ l)⟩ = l := by
  unfold toStrBytes
  rw [toBeBytes_fromBeBytes (by simp; omega), List.filter_append, List.filter_replicate,
    List.filter_eq_self.mpr (fun b hb => by simpa using hl b hb)]
  simp

theorem fromBytes_ok {s : List UInt8} (hlen : s.length ≤ 8) (hs : s.all isAsciiAlphanumeric = true) :
    fromBytes s = .ok ⟨fromBeBytes (List.replicate (8 - s.length) 0 ++ s.map toAsciiLowercase)⟩ := by
  rw [fromBytes_eq, if_neg (by omega), if_pos hs]

theorem mem_lowered {s : List UInt8} (hs : s.all isAsciiAlphanumeric = true) :
    ∀ b ∈ s.map toAsciiLowercase, b ≠ 0 ∧ b.toNat < 0x80 ∧
      isAsciiAlphanumeric b = true ∧ toAsciiLowercase b = b := by
  intro b hb
  obtain ⟨c, hc, rfl⟩ := List.mem_map.mp hb
  exact toAsciiLowercase_of_alphanumeric (List.all_eq_true.mp hs c hc)

/-- `to_str_bytes` of an accepted string: the string lowercased. -/
theorem toStrBytes_lowered {s : List UInt8} (hlen : s.length ≤ 8)
    (hs : s.all isAsciiAlphanumeric = true) :
    toStrBytes ⟨fromBeBytes (List.replicate (8 - s.length) 0 ++ s.map toAsciiLowercase)⟩ =
      s.map toAsciiLowercase := by
  have := @toStrBytes_packed (s.map toAsciiLowercase) (by simpa using hlen)
    fun b hb => (mem_lowered hs b hb).1
  rwa [List.length_map] at this

/-- **The ticker round trip.**  An alphanumeric string of at most eight bytes is an asset whose
    `to_str_bytes` is the string lowercased and whose symbol is that text; another such string
    gives the same asset exactly when it is equal ignoring ASCII case; and `from_bytes` of
    `to_str_bytes` gives the asset back. -/
theorem fromBytes_toStrBytes (s : List UInt8) (hlen : s.length ≤ 8)
    (hs : s.all isAsciiAlphanumeric = true) :
    ∃ a, fromBytes s = .ok a ∧ a.toStrBytes = s.map toAsciiLowercase ∧
      a.getSymbol = some ((s.map toAsciiLowercase).map fun b => Char.ofNat b.toNat) ∧
      (∀ t : List UInt8, t.length ≤ 8 → t.all isAsciiAlphanumeric = true →
        (fromBytes t = .ok a ↔ t.map toAsciiLowercase = s.map toAsciiLowercase)) ∧
      fromBytes a.toStrBytes = .ok a := by
  have hstr := toStrBytes_lowered hlen hs
  refine ⟨_, fromBytes_ok hlen hs, hstr, ?_, fun t htl ht => ?_, ?_⟩
  · rw [getSymbol, hstr]
    exact fromUtf8_of_ascii fun b hb => (mem_lowered hs b hb).2.1
  · rw [fromBytes_ok htl ht]
    refine ⟨fun h => by rw [← hstr, ← toStrBytes_lowered htl ht, Except.ok.inj h], fun h => ?_⟩
    rw [h, show t.length = s.length by simpa using congrArg List.length h]
  · have hidem : (s.map toAsciiLowercase).map toAsciiLowercase = s.map toAsciiLowercase :=
      (List.map_congr_left fun b hb => (mem_lowered hs b hb).2.2.2).trans (List.map_id' _)
    rw [hstr, fromBytes_ok (by simpa using hlen)
      (List.all_eq_true.mpr fun b hb => (mem_lowered hs b hb).2.2.1), hidem, List.length_map]

/-- `from_bytes(b"ETH")`: the asset of `eth`. -/
theorem fromBytes_toStrBytes_eth :
    ([0x45, 0x54, 0x48] : List UInt8).length ≤ 8 ∧
      ([0x45, 0x54, 0x48] : List UInt8).all isAsciiAlphanumeric = true ∧
      ∃ a, fromBytes [0x45, 0x54, 0x48] = .ok a ∧
        a.toStrBytes = ([0x45, 0x54, 0x48] : List UInt8).map toAsciiLowercase ∧
        a.getSymbol =
          some ((([0x45, 0x54, 0x48] : List UInt8).map toAsciiLowercase).map fun b => Char.ofNat b.toNat) ∧
        (∀ t : List UInt8, t.length ≤ 8 → t.all isAsciiAlphanumeric = true →
          (fromBytes t = .ok a ↔
            t.map toAsciiLowercase = ([0x45, 0x54, 0x48] : List UInt8).map toAsciiLowercase)) ∧
        fromBytes a.toStrBytes = .ok a :=
  ⟨by decide, by decide, fromBytes_toStrBytes _ (by decide) (by decide)⟩

/-- **The empty string is an asset.**  `from_bytes(vec![])` passes the length check and the
    symbol check (it has no byte to reject) and packs eight zero bytes: `Asset(0)`, whose
    symbol is the empty string. -/
theorem fromBytes_empty_ok : fromBytes [] = .ok ⟨0⟩ ∧ getSymbol ⟨0⟩ = some [] := ⟨rfl, rfl⟩


/-! ## §6. Which assets share a query symbol. -/

/-- `Char.ofNat` of an ASCII code is the character with that code. -/
theorem toNat_charOfNat {n : Nat} (h : n < 0x80) : (Char.ofNat n).toNat = n := by
  rw [Char.ofNat, dif_pos (Or.inl (by omega))]
  rfl

/-- An asset `from_bytes` builds: its symbol is its lowered bytes, one character each, and the
    asset is those bytes packed. -/
theorem getSymbol_of_fromBytes {s : List UInt8} {a : Asset} (h : fromBytes s = .ok a) :
    a.getSymbol = some ((s.map toAsciiLowercase).map fun b => Char.ofNat b.toNat) ∧
      a = ⟨fromBeBytes (List.replicate (8 - s.length) 0 ++ s.map toAsciiLowercase)⟩ := by
  obtain ⟨hlen, hs⟩ := (fromBytes_isOk_iff s).mp ⟨a, h⟩
  have ha := Except.ok.inj ((fromBytes_ok hlen hs).symm.trans h)
  subst ha
  refine ⟨?_, rfl⟩
  rw [getSymbol, toStrBytes_lowered hlen hs]
  exact fromUtf8_of_ascii fun b hb => (mem_lowered hs b hb).2.1

/-- **A symbol names one asset** among those `from_bytes` builds. -/
theorem eq_of_getSymbol_eq {s₁ s₂ : List UInt8} {a₁ a₂ : Asset} (h₁ : fromBytes s₁ = .ok a₁)
    (h₂ : fromBytes s₂ = .ok a₂) (h : a₁.getSymbol = a₂.getSymbol) : a₁ = a₂ := by
  obtain ⟨hs₁, rfl⟩ := getSymbol_of_fromBytes h₁
  obtain ⟨hs₂, rfl⟩ := getSymbol_of_fromBytes h₂
  obtain ⟨-, ha₁⟩ := (fromBytes_isOk_iff s₁).mp ⟨_, h₁⟩
  obtain ⟨-, ha₂⟩ := (fromBytes_isOk_iff s₂).mp ⟨_, h₂⟩
  -- the characters are ASCII, so their codes are the lowered bytes
  have hcodes : ∀ {s : List UInt8}, s.all isAsciiAlphanumeric = true →
      ((s.map toAsciiLowercase).map fun b => Char.ofNat b.toNat).map Char.toNat =
        (s.map toAsciiLowercase).map UInt8.toNat := fun hs => by
    rw [List.map_map]
    exact List.map_congr_left fun b hb => toNat_charOfNat (mem_lowered hs b hb).2.1
  rw [hs₁, hs₂, Option.some.injEq] at h
  have hl : s₁.map toAsciiLowercase = s₂.map toAsciiLowercase :=
    List.map_injective_iff.mpr (fun _ _ e => UInt8.toNat.inj e)
      ((hcodes ha₁).symm.trans ((congrArg (List.map Char.toNat) h).trans (hcodes ha₂)))
  have hlen : s₁.length = s₂.length := by simpa using congrArg List.length hl
  rw [hl, hlen]

/-- A query symbol is the symbol, or, on a Kraken query, one of Kraken's three names. -/
theorem getQuerySymbol_cases (a : Asset) (k : Bool) :
    a.getQuerySymbol k = a.getSymbol ∨
      (k = true ∧ a.getQuerySymbol k ∈ [some "xethz".toList, some "xxbtz".toList, some "usdtz".toList]) := by
  rcases h : a.getSymbol with _ | x <;> simp only [getQuerySymbol, h, Option.map_none', Option.map_some']
  · exact .inl trivial
  · split_ifs with h₁ h₂ h₃
    · exact .inr ⟨h₁.1, .head _⟩
    · exact .inr ⟨h₂.1, .tail _ (.head _)⟩
    · exact .inr ⟨h₃.1, .tail _ (.tail _ (.head _))⟩
    · exact .inl rfl

/-- Equal query symbols: equal symbols, or one of Kraken's three names on a Kraken query. -/
theorem getQuerySymbol_eq {a₁ a₂ : Asset} {k : Bool} (h : a₁.getQuerySymbol k = a₂.getQuerySymbol k) :
    a₁.getSymbol = a₂.getSymbol ∨
      (k = true ∧ a₁.getQuerySymbol k ∈ [some "xethz".toList, some "xxbtz".toList, some "usdtz".toList]) := by
  rcases getQuerySymbol_cases a₁ k with h₁ | hk
  · rcases getQuerySymbol_cases a₂ k with h₂ | ⟨hk, hm⟩
    · exact .inl (h₁.symm.trans (h.trans h₂))
    · exact .inr ⟨hk, h ▸ hm⟩
  · exact .inr hk

/-- **Two assets share a query symbol only through Kraken's renames.**  For assets `from_bytes`
    builds, equal query symbols mean the same asset, unless the query is for Kraken and the symbol
    is one of Kraken's names `xethz`, `xxbtz`, `usdtz`: there the assets `eth` and `xethz` (likewise
    `btc` and `xxbtz`, `usdt` and `usdtz`) are fetched under one name. -/
theorem getQuerySymbol_collision {s₁ s₂ : List UInt8} {a₁ a₂ : Asset} (h₁ : fromBytes s₁ = .ok a₁)
    (h₂ : fromBytes s₂ = .ok a₂) {isKraken : Bool}
    (h : a₁.getQuerySymbol isKraken = a₂.getQuerySymbol isKraken) :
    a₁ = a₂ ∨ (isKraken = true ∧
      a₁.getQuerySymbol isKraken ∈ [some "xethz".toList, some "xxbtz".toList, some "usdtz".toList]) :=
  (getQuerySymbol_eq h).imp_left (eq_of_getSymbol_eq h₁ h₂)

/-- `eth` and `xethz` on Kraken: two assets, one query symbol. -/
theorem getQuerySymbol_collision_eth :
    fromBytes [0x65, 0x74, 0x68] = .ok ⟨0x657468⟩ ∧
      fromBytes [0x78, 0x65, 0x74, 0x68, 0x7a] = .ok ⟨0x786574687a⟩ ∧
      (⟨0x657468⟩ : Asset).getQuerySymbol true = (⟨0x786574687a⟩ : Asset).getQuerySymbol true ∧
      (⟨0x657468⟩ : Asset) ≠ ⟨0x786574687a⟩ ∧
      ((⟨0x657468⟩ : Asset) = ⟨0x786574687a⟩ ∨ (true = true ∧
        (⟨0x657468⟩ : Asset).getQuerySymbol true ∈
          [some "xethz".toList, some "xxbtz".toList, some "usdtz".toList])) :=
  have h₁ : fromBytes [0x65, 0x74, 0x68] = .ok ⟨0x657468⟩ := rfl
  have h₂ : fromBytes [0x78, 0x65, 0x74, 0x68, 0x7a] = .ok ⟨0x786574687a⟩ := rfl
  have h : (⟨0x657468⟩ : Asset).getQuerySymbol true = (⟨0x786574687a⟩ : Asset).getQuerySymbol true := by
    decide
  ⟨h₁, h₂, h, by decide, getQuerySymbol_collision h₁ h₂ h⟩

end Asset

end EqOracle
