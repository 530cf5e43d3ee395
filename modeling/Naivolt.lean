import Naivolt.App.AuthV2
import Naivolt.App.TokenStorage
import Naivolt.Auth.Codes
import Naivolt.Auth.Cooldown
import Naivolt.Auth.Exchanges
import Naivolt.Auth.GoogleKeys
import Naivolt.Auth.Guessing
import Naivolt.Auth.Identifier
import Naivolt.Auth.Identity
import Naivolt.Auth.Linking
import Naivolt.Auth.Masking
import Naivolt.Auth.Requests
import Naivolt.Auth.Revocation
import Naivolt.Auth.Rotation
import Naivolt.Auth.Session
import Naivolt.Auth.SessionCookie
import Naivolt.Auth.SigningIn
import Naivolt.Auth.Spelling
import Naivolt.Auth.Tables
import Naivolt.Catalogue.Countries
import Naivolt.Catalogue.GuestPrices
import Naivolt.Catalogue.Prices
import Naivolt.Catalogue.Sources
import Naivolt.Catalogue.Sweeps
import Naivolt.Core
import Naivolt.Foundation.Actors
import Naivolt.Foundation.Calendar
import Naivolt.Foundation.Contention
import Naivolt.Foundation.Decimals
import Naivolt.Foundation.Delimited
import Naivolt.Foundation.Executions
import Naivolt.Foundation.Fields
import Naivolt.Foundation.FixedPoint
import Naivolt.Foundation.HashChain
import Naivolt.Foundation.Histories
import Naivolt.Foundation.Inevitability
import Naivolt.Foundation.Layers
import Naivolt.Foundation.Metering
import Naivolt.Foundation.Moments
import Naivolt.Foundation.Pages
import Naivolt.Foundation.Radix
import Naivolt.Foundation.ReadCommitted
import Naivolt.Foundation.Retrying
import Naivolt.Foundation.Supervised
import Naivolt.Foundation.Table
import Naivolt.Foundation.Texts
import Naivolt.Foundation.Utf8
import Naivolt.Foundation.Window
import Naivolt.Funding.Abandonment
import Naivolt.Funding.Intent
import Naivolt.Funding.Settlement
import Naivolt.Http.Quotas
import Naivolt.Ledger.Account
import Naivolt.Ledger.Aliasing
import Naivolt.Ledger.Journal
import Naivolt.Ledger.Keys
import Naivolt.Ledger.Numeric
import Naivolt.Ledger.Totals
import Naivolt.Numbers.Absorption
import Naivolt.Numbers.Activations
import Naivolt.Numbers.Adapters
import Naivolt.Numbers.Backoff
import Naivolt.Numbers.BuyLoop
import Naivolt.Numbers.Claims
import Naivolt.Numbers.Conservation
import Naivolt.Numbers.Decision
import Naivolt.Numbers.Fencing
import Naivolt.Numbers.Idempotency
import Naivolt.Numbers.Inbox
import Naivolt.Numbers.Order
import Naivolt.Numbers.Polling
import Naivolt.Numbers.Provenance
import Naivolt.Numbers.Purchasing
import Naivolt.Numbers.Reserve
import Naivolt.Numbers.ReusedKeys
import Naivolt.Numbers.Suppliers
import Naivolt.Numbers.Transitions
import Naivolt.Numbers.UnknownPurchase
import Naivolt.Numbers.Wire
import Naivolt.Operators.Access
import Naivolt.Operators.Alerts
import Naivolt.Operators.AuditLog
import Naivolt.Operators.Chain
import Naivolt.Operators.Desk
import Naivolt.Operators.Lockout
import Naivolt.Operators.Preimages
import Naivolt.Operators.Refunds
import Naivolt.Operators.Snapshot
import Naivolt.Operators.Switches
import Naivolt.Payouts.Answers
import Naivolt.Payouts.Backing
import Naivolt.Payouts.Beneficiaries
import Naivolt.Payouts.DailyCap
import Naivolt.Payouts.Isolation
import Naivolt.Payouts.Payout
import Naivolt.Payouts.Pins
import Naivolt.Payouts.Replay
import Naivolt.Pricing.Rates
import Naivolt.Shop.Agreement
import Naivolt.Shop.GiftCards
import Naivolt.Shop.Offers
import Naivolt.System.Contracted
import Naivolt.System.Contracts
import Naivolt.System.Guarantee
import Naivolt.System.Handlers
import Naivolt.System.Interference
import Naivolt.System.KeySpace
import Naivolt.System.Moves
import Naivolt.System.Obligations
import Naivolt.System.Overdrafts
import Naivolt.System.Purchases
import Naivolt.System.Statements
import Naivolt.System.Steps
import Naivolt.System.World
import Naivolt.Trace
import Naivolt.Users.Activity
import Naivolt.Users.AgeGate
import Naivolt.Users.DepositAddress
import Naivolt.Users.Kyc
import Naivolt.Wallet.Address
import Naivolt.Wallet.DerivationPath
import Naivolt.Watcher.Advancing
import Naivolt.Watcher.Amounts
import Naivolt.Watcher.Confirmations
import Naivolt.Watcher.Coverage
import Naivolt.Watcher.Crediting
import Naivolt.Watcher.Deposit
import Naivolt.Watcher.Evm
import Naivolt.Watcher.Narrowing
import Naivolt.Watcher.Placement
import Naivolt.Watcher.Receipts
import Naivolt.Watcher.Recording
import Naivolt.Watcher.Reorgs
import Naivolt.Watcher.Rpc
import Naivolt.Watcher.Sweep
import Naivolt.Watcher.Topics
import Naivolt.Watcher.Tron
