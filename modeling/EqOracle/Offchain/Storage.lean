/-
  EqOracle.Offchain.Storage
  ─────────────────────────
  **THE ORACLE'S OFFCHAIN SETTINGS (`offchain_storage`).**

  Settings live in the node's persistent offchain storage as UTF-8 text
  (`get_local_storage_val`).  `get_asset_settings` reads the restriction set of the price
  source: `,`-separated items `SYMBOL[:strategy]`, each symbol and strategy trimmed and
  lowercased, the strategy `price` when absent, a later item for a symbol replacing an earlier
  one (`BTreeMap::collect`).
-/
import EqOracle.Asset
import EqOracle.Text

namespace EqOracle.Offchain

open Text

/-- `get_local_storage_val::<String>`: the stored bytes, when they are UTF-8 (`parse` of a
    `String` never fails). -/
def getLocalStorageString (raw : Option (List UInt8)) : Option (List Char) :=
  raw.bind fromUtf8

/-- `str::as_bytes` of an ASCII text: one byte per character. -/
def asBytes (s : List Char) : List UInt8 := s.map fun c => UInt8.ofNat c.toNat

/-- ASCII text written with `as_bytes` reads back as itself. -/
theorem getLocalStorageString_asBytes {s : List Char} (h : ∀ c ∈ s, c.toNat < 0x80) :
    getLocalStorageString (some (asBytes s)) = some s := by
  have hb : ∀ c ∈ s, (UInt8.ofNat c.toNat).toNat = c.toNat := fun c hc => by
    rw [UInt8.toNat_ofNat_eq_mod]; have := h c hc; omega
  simp only [getLocalStorageString, Option.some_bind, asBytes]
  rw [fromUtf8_of_ascii (by simpa [List.mem_map] using fun c hc => (hb c hc).symm ▸ h c hc),
    List.map_map]
  exact congrArg some ((List.map_congr_left fun c hc => by simp [hb c hc, Char.ofNat_toNat]).trans
    (List.map_id' s))

/-- A `BTreeMap<String, String>`, as the list of its entries. -/
abbrev Settings := List (List Char × List Char)

/-- `BTreeMap::insert`: the new value replaces the old one. -/
def Settings.insert (m : Settings) (k v : List Char) : Settings :=
  (k, v) :: m.filter (fun e => e.1 ≠ k)

/-- `BTreeMap::get`. -/
def Settings.get (m : Settings) (k : List Char) : Option (List Char) :=
  (m.find? (fun e => e.1 = k)).map (·.2)

/-- `get_asset_settings`: the stored restriction set, empty when absent or not UTF-8.
    `split_pair.next().unwrap()` never fails: a split has at least one piece. -/
def getAssetSettings (raw : Option (List UInt8)) : Settings :=
  match getLocalStorageString raw with
  | none => []
  | some assetsStr =>
    (splitChar ',' assetsStr).foldl
      (fun m pairStr =>
        let splitPair := splitChar ':' pairStr
        m.insert (toLowercase (trim (splitPair.head (splitChar_ne_nil ':' pairStr))))
          (match splitPair.tail with
            | v :: _ => toLowercase (trim v)
            | [] => "price".toList))
      []

/-! ## The restriction set, item by item. -/

theorem Settings.get_insert (m : Settings) (k v k' : List Char) :
    (m.insert k v).get k' = if k = k' then some v else m.get k' := by
  by_cases h : k = k'
  · simp [Settings.insert, Settings.get, h]
  · simp only [Settings.insert, Settings.get, List.find?_cons, h, decide_False, if_false,
      List.find?_filter]
    congr 2
    funext e
    by_cases he : e.1 = k' <;> simp [he, Ne.symm h]

/-- The symbol of an item `SYMBOL[:strategy]`: what precedes the first `:`, trimmed and
    lowercased. -/
def settingsKey (pairStr : List Char) : List Char :=
  toLowercase (trim ((splitChar ':' pairStr).head (splitChar_ne_nil ':' pairStr)))

/-- The strategy of an item: what follows the first `:`, up to a second one, trimmed and
    lowercased; `price` when the item has no `:`. -/
def settingsValue (pairStr : List Char) : List Char :=
  match (splitChar ':' pairStr).tail with
  | v :: _ => toLowercase (trim v)
  | [] => "price".toList

/-- `get_asset_settings` inserts each item's key and value, in order. -/
theorem getAssetSettings_eq (raw : Option (List UInt8)) :
    getAssetSettings raw =
      match getLocalStorageString raw with
      | none => []
      | some assetsStr =>
        (splitChar ',' assetsStr).foldl (fun m pairStr => m.insert (settingsKey pairStr)
          (settingsValue pairStr)) [] := rfl

/-- Inserting items in order: a key maps to the value of its last item, else to what the map
    held before. -/
theorem get_foldl_insert (items : List (List Char)) (m : Settings) (k : List Char) :
    (items.foldl (fun m pairStr => m.insert (settingsKey pairStr) (settingsValue pairStr)) m).get k =
      ((items.reverse.find? (fun pairStr => settingsKey pairStr = k)).map settingsValue).or (m.get k) := by
  induction items generalizing m with
  | nil => rfl
  | cons item items ih =>
    rw [List.foldl_cons, ih, Settings.get_insert, List.reverse_cons, List.find?_append]
    cases List.find? (fun pairStr => decide (settingsKey pairStr = k)) items.reverse <;>
      by_cases h : settingsKey item = k <;> simp [h]

/-- **`get_asset_settings` item by item**: when the stored text is UTF-8, a symbol maps to the
    strategy of the last item naming it, and to nothing when no item names it. -/
theorem getAssetSettings_get {raw : Option (List UInt8)} {assetsStr : List Char}
    (h : getLocalStorageString raw = some assetsStr) (k : List Char) :
    (getAssetSettings raw).get k =
      ((splitChar ',' assetsStr).reverse.find? (fun pairStr => settingsKey pairStr = k)).map
        settingsValue := by
  rw [getAssetSettings_eq, h]
  simp only [get_foldl_insert]
  cases (List.find? _ _) <;> rfl

end EqOracle.Offchain
