import AtomicIp.Api.RequestSigning
import AtomicIp.Differential
import AtomicIp.Keyholders
import AtomicIp.Registry.Attachments
import AtomicIp.Registry.Awards
import AtomicIp.Registry.Categories
import AtomicIp.Registry.CommitmentLog
import AtomicIp.Registry.DelegatedCommits
import AtomicIp.Registry.DelegationChains
import AtomicIp.Registry.EventLog
import AtomicIp.Registry.Expirations
import AtomicIp.Registry.Integrity
import AtomicIp.Registry.Notary
import AtomicIp.Registry.Shards
import AtomicIp.Registry.Stakes
import AtomicIp.Registry.Strength
import AtomicIp.Registry.Thresholds
import AtomicIp.Registry.Verification
import AtomicIp.Registry.Versions
import AtomicIp.Swap.AuctionHouse
import AtomicIp.Swap.Authority
import AtomicIp.Swap.BatchAcceptance
import AtomicIp.Swap.BatchOffers
import AtomicIp.Swap.Cancellations
import AtomicIp.Swap.Conditions
import AtomicIp.Swap.Currencies
import AtomicIp.Swap.Exclusion
import AtomicIp.Swap.InsuranceClaims
import AtomicIp.Swap.Oracle
import AtomicIp.Swap.Pause
import AtomicIp.Swap.Premiums
import AtomicIp.Swap.Reputation
import AtomicIp.Swap.Rollback
import AtomicIp.Swap.Schedules
import AtomicIp.Swap.Scores
import AtomicIp.Swap.SignedReveal
import AtomicIp.Swap.Upgrade
import AtomicIp.Swap.Wallets
