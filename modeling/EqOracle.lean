import EqOracle.Fixed
import EqOracle.BinarySearch
import EqOracle.Pallet.Model
import EqOracle.Pallet.Spec
import EqOracle.Pallet.Invariant
import EqOracle.Pallet.Filter
import EqOracle.Pallet.Block
import EqOracle.Pallet.Duplicate
import EqOracle.Pallet.Unsigned
import EqOracle.Pallet.Positive
import EqOracle.Pallet.Events
import EqOracle.Offchain.Lock
import EqOracle.Offchain.Interleaving
import EqOracle.Asset
import EqOracle.Text
import EqOracle.Offchain.Storage
import EqOracle.Offchain.Worker
import EqOracle.PriceSource.Json
import EqOracle.PriceSource.GetPrices
import EqOracle.PriceSource.Query
import EqOracle.PriceSource.Path
import EqOracle.Offchain.Submit
