import NibiruWasm.Chain.Run
import NibiruWasm.Chain.Store
import NibiruWasm.Chain.Index
import NibiruWasm.Cosmwasm.Std
import NibiruWasm.VestingV2.Msg
import NibiruWasm.VestingV2.State
import NibiruWasm.VestingV2.Contract
import NibiruWasm.Chain.Except
import NibiruWasm.VestingV2.Proofs.Schedule
import NibiruWasm.VestingV2.Proofs.Handlers
import NibiruWasm.VestingV2.Proofs.Invariant
import NibiruWasm.VestingV2.Proofs.Books
import NibiruWasm.VestingV1.Msg
import NibiruWasm.VestingV1.Contract
import NibiruWasm.VestingV1.Proofs.Handlers
import NibiruWasm.VestingV1.Proofs.Schedule
import NibiruWasm.VestingV1.Proofs.Conservation
import NibiruWasm.Cw3.Types
import NibiruWasm.Cw3Fixed.Contract
import NibiruWasm.Cw3Flex.Contract
import NibiruWasm.Cw3Flex.Proofs.Handlers
import NibiruWasm.Cw3.Lifecycle
import NibiruWasm.Cw3Fixed.Proofs.Handlers
import NibiruWasm.Cw3.Utils
import NibiruWasm.Cw3Fixed.Proofs.Lifecycle
import NibiruWasm.Cw3Fixed.Proofs.Weights
import NibiruWasm.Cw3Flex.Proofs.Lifecycle
import NibiruWasm.Cw3Flex.Proofs.Tally
import NibiruWasm.CwUtils.Expiration
import NibiruWasm.Ownable.Ownership
import NibiruWasm.Ownable.Proofs
import NibiruWasm.Broker.Bank
import NibiruWasm.Broker.Staking
import NibiruWasm.Broker.Split
import NibiruWasm.Broker.Proofs
import NibiruWasm.Text.Digits
import NibiruWasm.Cosmwasm.Decimal
import NibiruWasm.Cosmwasm.DecimalFormat
import NibiruWasm.NibiruStd.Math
import NibiruWasm.NibiruStd.Proofs.Codec
import NibiruWasm.NibiruStd.Proofs.Arith
import NibiruWasm.Shifter.Contract
import NibiruWasm.Shifter.Proofs
import NibiruWasm.NibiStargate.Contract
import NibiruWasm.NibiStargate.Proofs
import NibiruWasm.Lockup.Contract
import NibiruWasm.Lockup.Query
import NibiruWasm.Lockup.Proofs.Handlers
import NibiruWasm.Lockup.Proofs.Lifecycle
import NibiruWasm.Lockup.Proofs.Queries
import NibiruWasm.Incentives.Contract
import NibiruWasm.Incentives.System
import NibiruWasm.Incentives.Proofs
import NibiruWasm.Incentives.Handlers
import NibiruWasm.Incentives.Budget
import NibiruWasm.Incentives.Withdrawals
import NibiruWasm.Pricefeed.Contract
import NibiruWasm.Pricefeed.Proofs.Handlers
import NibiruWasm.Pricefeed.Proofs.Median
import NibiruWasm.Pricefeed.Proofs.Feed
import NibiruWasm.NibiruStd.Address
import NibiruWasm.Text.Bits
import NibiruWasm.Bech32.Codec
import NibiruWasm.Bech32.Checksum
import NibiruWasm.Bech32.Base32
import NibiruWasm.NibiruStd.Proofs.Address
import NibiruWasm.Chain.Page
import NibiruWasm.Cw3.Query
import NibiruWasm.Cw3Fixed.Query
import NibiruWasm.Cw3Fixed.Proofs.Query
import NibiruWasm.Cw3Flex.Query
import NibiruWasm.Cw3Flex.Proofs.Query
import NibiruWasm.VestingV1.Query
import NibiruWasm.VestingV1.Proofs.Query
import NibiruWasm.Controller.Contract
import NibiruWasm.Controller.Proofs
import NibiruWasm.Counter.Contract
import NibiruWasm.Counter.Proofs
import NibiruWasm.Incentives.Query
import NibiruWasm.Incentives.Queries
import NibiruWasm.Shifter.Query
