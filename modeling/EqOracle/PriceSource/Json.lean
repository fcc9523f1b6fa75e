/-
  EqOracle.PriceSource.Json
  ─────────────────────────
  **`JsonPriceSource`: FETCHING PRICES FROM A JSON HTTP API.**

  For each asset of the registry, `get_prices` builds the asset's URL from the stored query
  `json(<url template>).<path template>`, fetches it, walks the JSON body along the path and
  converts the number it finds into a price; when a restriction set is stored it fetches only
  the assets it names, and applies each one's strategy (`price`, or `reverse` for the
  reciprocal).

  What the repository takes from libraries is modelled at their interface:
    * `serde_json::from_str` is a parameter, `fromStr`, of every function that parses;
    * an HTTP request is the `HttpOutcome` the node got for the asset;
    * `f64` values are kept exact (`Decimal`), so the price conversion rounds once, at the
      final `as u128`, where the code also rounds the product to `f64`;
    * `regex_offsets` is not in the repository's sources: its two functions are modelled from
      the regular expression `json.rs` quotes and from the path grammar of the spec.

  A computation that can fail with a `PriceSourceError` or panic is `Fallible`: `none` is a
  panic, which ends the offchain worker.
-/
import EqOracle.Fixed
import EqOracle.Offchain.Storage

namespace EqOracle.PriceSource

open Text Offchain

/-! ## §1. Errors, values, numbers. -/

/-- `PriceSourceError`. -/
inductive PriceSourceError where
  | httpError
  | wrongUrlPattern
  | noQueryStringInStorage
  | incorrectQueryFormat
  | deserializationError
  | jsonParseError
  | jsonValueNotANumber
  | jsonPriceConversionError
  | unknownPriceStrategy
  | symbol
  deriving DecidableEq

/-- `From<PriceSourceError> for &'static str`. -/
def PriceSourceError.toStr : PriceSourceError → List Char
  | .httpError => "Http error".toList
  | .wrongUrlPattern => "Wrong url pattern".toList
  | .noQueryStringInStorage => "No query string in storage".toList
  | .incorrectQueryFormat => "Incorrect query format".toList
  | .deserializationError => "Deserialization error".toList
  | .jsonParseError => "Json parse error".toList
  | .jsonValueNotANumber => "Json value not a number".toList
  | .jsonPriceConversionError => "Json price conversion error".toList
  | .unknownPriceStrategy => "Unknown price strategy".toList
  | .symbol => "Symbol".toList

/-- A decimal number `mantissa · 10 ^ exponent`: the exact value of a numeric literal. -/
structure Decimal where
  mantissa : Int
  exponent : Int
  deriving DecidableEq

/-- `serde_json::Value`; an object is the list of its entries. -/
inductive Value where
  | null
  | bool (b : Bool)
  | number (n : Decimal)
  | string (s : List Char)
  | array (items : List Value)
  | object (entries : List (List Char × Value))

/-- `Value::get(&str)`: an object's entry. -/
def Value.getKey : Value → List Char → Option Value
  | .object entries, key => (entries.find? (fun e => e.1 = key)).map (·.2)
  | _, _ => none

/-- `Value::get(usize)`: an array's element. -/
def Value.getIdx : Value → Nat → Option Value
  | .array items, i => items.get? i
  | _, _ => none

/-- An `f64`: a finite value (kept exact), an infinity, or NaN. -/
inductive F64 where
  | finite (d : Decimal)
  | infinite (negative : Bool)
  | nan

/-- The exponent part of an `f64` literal: nothing, or `[eE][+-]?digits`. -/
def parseExponent : List Char → Option Int
  | [] => some 0
  | c :: rest =>
    if c = 'e' ∨ c = 'E' then
      let (negative, ds) := match rest with
        | '+' :: ds => (false, ds)
        | '-' :: ds => (true, ds)
        | ds => (false, ds)
      if ds ≠ [] ∧ ds.all Char.isDigit then
        some (if negative then -(digitsValue ds : Int) else digitsValue ds)
      else none
    else none

/-- `f64::from_str`: a sign, then `inf`, `infinity` or `nan` in any case, or digits with an
    optional `.` and fraction, at least one digit in all, and an optional exponent. -/
def parseF64 (s : List Char) : Option F64 :=
  let (negative, body) := match s with
    | '+' :: b => (false, b)
    | '-' :: b => (true, b)
    | b => (false, b)
  if toLowercase body = "inf".toList ∨ toLowercase body = "infinity".toList then
    some (.infinite negative)
  else if toLowercase body = "nan".toList then some .nan
  else
    let intPart := body.takeWhile Char.isDigit
    let (fracPart, rest) := match body.dropWhile Char.isDigit with
      | '.' :: r => (r.takeWhile Char.isDigit, r.dropWhile Char.isDigit)
      | r => ([], r)
    if intPart = [] ∧ fracPart = [] then none
    else
      (parseExponent rest).map fun e =>
        let m : Int := digitsValue (intPart ++ fracPart)
        .finite ⟨if negative then -m else m, e - fracPart.length⟩

/-- `MAX_ACCURACY`. -/
def maxAccuracy : Nat := 1000000000000

/-- `(price * MAX_ACCURACY as f64) as u128`: truncated toward zero and saturated to `u128`;
    negatives and NaN give `0`. -/
def scaledU128 : F64 → Nat
  | .nan => 0
  | .infinite negative => if negative then 0 else 2 ^ 128 - 1
  | .finite d =>
    let v : Int :=
      if 0 ≤ d.exponent + 12 then d.mantissa * 10 ^ (d.exponent + 12).toNat
      else d.mantissa.tdiv (10 ^ (-(d.exponent + 12)).toNat)
    if v < 0 then 0 else min v.toNat (2 ^ 128 - 1)

/-- The price of the value the path selects: a number (`as_f64`) or a string that parses as
    an `f64`, scaled by `MAX_ACCURACY` (`saturating_from_rational`). -/
def priceOfValue (val : Value) : Except PriceSourceError FixedI64 := do
  let maybePrice ← match val with
    | .number v => pure (some (F64.finite v))
    | .string v => pure (parseF64 v)
    | _ => throw .jsonValueNotANumber
  match maybePrice with
  | none => throw .jsonPriceConversionError
  | some price => pure (FixedI64.saturatingFromRational (scaledU128 price) maxAccuracy)

/-! ## §2. Queries and paths. -/

/-- What can fail with a `PriceSourceError`, or panic (`none`). -/
abbrev Fallible := ExceptT PriceSourceError Option

/-- A panic: an `expect` on an `Err` or `None`. -/
def abort {α : Type} : Fallible α := ExceptT.lift none

/-- A `Fallible` sequence succeeds exactly when its first step does and the rest does on that
    step's value. -/
theorem Fallible.run_bind_eq_ok {α β : Type} {x : Fallible α} {f : α → Fallible β} {v : β} :
    (x >>= f).run = some (.ok v) ↔ ∃ a, x.run = some (.ok a) ∧ (f a).run = some (.ok v) := by
  simp only [ExceptT.run_bind]
  rcases x.run with _ | _ | a <;> simp

/-- `s[a..b]`. -/
def slice (s : List Char) (a b : Nat) : List Char := (s.drop a).take (b - a)

/-- Where the matches of `.+\)\.` after a `(` may end, relative to the first character after
    it, when the characters before position `k` all matched `.` (no line feed). -/
def closeDotEnds : List Char → Nat → List Nat
  | [], _ => []
  | c :: rest, k =>
    (match c, rest with
      | ')', '.' :: _ => [k + 2]
      | _, _ => []) ++ (if c = '\n' then [] else closeDotEnds rest (k + 1))

/-- The leftmost match of `\(.+\)\.` from position `i`, greedy: the last `).` it can reach. -/
def urlOffsetFrom : List Char → Nat → Option (Nat × Nat)
  | [], _ => none
  | c :: rest, i =>
    let matchEnd : Option Nat := match c, rest with
      | '(', c₀ :: rest' => if c₀ = '\n' then none else (closeDotEnds rest' 1).getLast?
      | _, _ => none
    match matchEnd with
    | some e => some (i, i + 1 + e)
    | none => urlOffsetFrom rest (i + 1)

/-- `regex_offsets::get_url_offset`.  Modelled from the spec: the start and end of the match
    of the regular expression `\(.+\)\.` that `fetch_price` quotes. -/
def getUrlOffset (query : List Char) : Option (Nat × Nat) := urlOffsetFrom query 0

/-- The number of digits before a `]`, if there is at least one and nothing else. -/
def digitsBeforeClose : List Char → Nat → Option Nat
  | [], _ => none
  | c :: rest, n =>
    if c = ']' then (if n = 0 then none else some n)
    else if c.isDigit then digitsBeforeClose rest (n + 1)
    else none

/-- The spans of the bracketed decimal groups from position `p`. -/
def indexOffsetsFrom : List Char → Nat → List (Nat × Nat)
  | [], _ => []
  | c :: rest, p =>
    let tail := indexOffsetsFrom rest (p + 1)
    if c = '[' then
      match digitsBeforeClose rest 0 with
      | some n => (p, p + n + 2) :: tail
      | none => tail
    else tail

/-- `regex_offsets::get_index_offsets`.  Modelled from the spec: in order, the span of each
    bracketed decimal index `[digits]` of a path segment, from its `[` to one past its `]`. -/
def getIndexOffsets (index : List Char) : List (Nat × Nat) := indexOffsetsFrom index 0

/-- `WithUrl::get_url`: the query symbol, uppercased when the template names `USD`, put in
    place of every `{$}`. -/
def getUrl {AssetId : Type} (sym : AsSymbol AssetId) (asset : AssetId)
    (urlTemplate pathTemplate : List Char) :
    Except PriceSourceError (List Char × List Char) :=
  let isUpperCase := isInfix "USD".toList urlTemplate
  let isKraken := isInfix "api.kraken.com".toList urlTemplate
  match sym.getQuerySymbol asset isKraken with
  | none => .error .symbol
  | some symbol =>
    let symbol := if isUpperCase then toUppercase symbol else toLowercase symbol
    .ok (replacePlaceholder symbol urlTemplate, replacePlaceholder symbol pathTemplate)

/-! ## §3. HTTP. -/

/-- `http::Error`. -/
inductive HttpError where
  | deadlineReached
  | ioError
  | unknown

/-- What the node's HTTP request for an asset came to: a response with its status and body,
    or an error (sending failed, no response before the deadline, a failed response). -/
inductive HttpOutcome where
  | response (code : Nat) (body : List UInt8)
  | failed (e : HttpError)

/-- `http_client::execute_request`: only status 200 gives a body, read as UTF-8 or as the
    empty string. -/
def executeRequest : HttpOutcome → Except HttpError (List Char)
  | .response code body => if code ≠ 200 then .error .unknown else .ok ((fromUtf8 body).getD [])
  | .failed e => .error e

/-! ## §4. Fetching one price. -/

section Fetch

variable (fromStr : List Char → Option Value)

/-- One bracketed index of a segment: the key before it (when it is not at the start of the
    segment), then the array index, whose `parse::<usize>().expect(..)` panics on overflow. -/
def walkIndex (index : List Char) (val : Value) (offset : Nat × Nat) : Fallible Value := do
  let val ← if offset.1 ≠ 0 then
      match val.getKey (index.take offset.1) with
      | some v => pure v
      | none => throw .jsonParseError
    else pure val
  let i ← match parseUsize (slice index (offset.1 + 1) (offset.2 - 1)) with
    | some i => pure i
    | none => abort
  match val.getIdx i with
  | some v => pure v
  | none => throw .jsonParseError

/-- One `.`-separated segment of the path: a key, or its bracketed indices. -/
def walkSegment (val : Value) (index : List Char) : Fallible Value :=
  match getIndexOffsets index with
  | [] =>
    match val.getKey index with
    | some v => pure v
    | none => throw .jsonParseError
  | offsets => offsets.foldlM (walkIndex index) val

/-- `fetch_price_from_json`. -/
def fetchPriceFromJson (body path : List Char) : Fallible FixedI64 := do
  let val ← match fromStr body with
    | some v => pure v
    | none => throw .deserializationError
  let val ← (splitChar '.' path).foldlM walkSegment val
  match priceOfValue val with
  | .ok price => pure price
  | .error e => throw e

/-- `fetch_price`: the URL and path from the query, the request, the JSON. -/
def fetchPrice {AssetId : Type} (sym : AsSymbol AssetId) (outcome : HttpOutcome)
    (asset : AssetId) (query : List Char) : Fallible FixedI64 := do
  let some (start, stop) := getUrlOffset query | throw .incorrectQueryFormat
  let urlTemplate := slice query (start + 1) (stop - 2)
  if !isInfix "\x7b$\x7d".toList urlTemplate then throw .wrongUrlPattern
  let pathTemplate := query.drop stop
  let (_, path) ← match getUrl sym asset urlTemplate pathTemplate with
    | .ok r => (pure r : Fallible _)
    | .error e => throw e
  let s ← match executeRequest outcome with
    | .ok s => pure s
    | .error _ => throw .httpError
  fetchPriceFromJson fromStr s path

end Fetch

/-! ## §5. All prices. -/

/-- `JsonPriceSource`: the stored query and the registry's assets. -/
structure JsonPriceSource (AssetId AssetData : Type) where
  query : List Char
  assetsData : List (AssetId × AssetData)

/-- `JsonPriceSource::new`: the query must be stored. -/
def JsonPriceSource.new {AssetId AssetData : Type} (storedQuery : Option (List UInt8))
    (assetsData : List (AssetId × AssetData)) :
    Except (List Char) (JsonPriceSource AssetId AssetData) :=
  match getLocalStorageString storedQuery with
  | some query => .ok ⟨query, assetsData⟩
  | none => .error "No query string in storage".toList

/-- What the loop of `get_prices` does with one asset: skip it (`continue`) or push a result. -/
inductive AssetStep where
  | skip
  | push (price : Except PriceSourceError FixedI64)

section GetPrices

variable {AssetId : Type} (sym : AsSymbol AssetId) (fromStr : List Char → Option Value)
  (http : AssetId → HttpOutcome) (query : List Char) (assetSettings : Settings)

/-- One iteration of the loop of `get_prices`; `none` when it panics (in `fetch_price`, or
    in `reciprocal().expect(..)` of a zero price). -/
def priceFor (asset : AssetId) : Option AssetStep :=
  if assetSettings = [] then (fetchPrice fromStr sym (http asset) asset query).run.map .push
  else
    match sym.getSymbol asset with
    | some symbol =>
      match assetSettings.get symbol with
      | some priceStrategy =>
        match (fetchPrice fromStr sym (http asset) asset query).run with
        | none => none
        | some (.error e) => some (.push (.error e))
        | some (.ok price) =>
          if priceStrategy = "price".toList then some (.push (.ok price))
          else if priceStrategy = "reverse".toList then
            (price.reciprocal).map (fun r => .push (.ok r))
          else some (.push (.error .unknownPriceStrategy))
      | none => some .skip
    | none => some (.push (.error .symbol))

/-- The loop of `get_prices` over the assets, in order. -/
def getPricesFrom {AssetData : Type} :
    List (AssetId × AssetData) → Option (List (AssetId × Except (List Char) FixedI64))
  | [] => some []
  | (asset, _) :: rest =>
    match priceFor sym fromStr http query assetSettings asset with
    | none => none
    | some .skip => getPricesFrom rest
    | some (.push price) =>
      ((asset, price.mapError PriceSourceError.toStr) :: ·) <$> getPricesFrom rest

end GetPrices

/-- `JsonPriceSource::get_prices`, with the stored restriction set and the outcome of each
    asset's request; `none` when it panics. -/
def JsonPriceSource.getPrices {AssetId AssetData : Type} (sym : AsSymbol AssetId)
    (fromStr : List Char → Option Value) (src : JsonPriceSource AssetId AssetData)
    (storedSettings : Option (List UInt8)) (http : AssetId → HttpOutcome) :
    Option (List (AssetId × Except (List Char) FixedI64)) :=
  getPricesFrom sym fromStr http src.query (getAssetSettings storedSettings) src.assetsData

/-- `get_prices` clears the stored restriction set (`clear_asset_settings`) when the set it
    read is empty and there is an asset to fetch. -/
def JsonPriceSource.clearsSettings {AssetId AssetData : Type}
    (src : JsonPriceSource AssetId AssetData) (storedSettings : Option (List UInt8)) : Bool :=
  (getAssetSettings storedSettings).isEmpty && !src.assetsData.isEmpty

end EqOracle.PriceSource
