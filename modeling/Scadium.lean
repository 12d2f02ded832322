import Scadium.Games.Jackpot.SettleRetry
import Scadium.Games.LateEntry
import Scadium.Games.SettleOnce
import Scadium.Games.Crash.Window
import Scadium.Games.Crash.StakesTheorems
import Scadium.Games.Blackjack.Calls
import Scadium.Games.Blackjack.Exposure
import Scadium.Games.Blackjack.Conservation
import Scadium.Games.Blackjack.Replay
import Scadium.Programs.Swap.Trades
import Scadium.Vault.Splitting
import Scadium.Custody.LandOrRefund
import Scadium.Games.Instant.Rotation
import Scadium.Games.Instant.Settled
import Scadium.Games.Coinflip.Exclusive
import Scadium.Custody.RetryHeld
import Scadium.Games.Crash.Scheduled
import Scadium.Games.IdempotentCommands
import Scadium.Custody.PlayGames
import Scadium.Users.Wallets
import Scadium.Auth.Rotation
import Scadium.Leaderboard.Race
import Scadium.Affiliates.Commission
import Scadium.Airdrop.Conservation
import Scadium.Queue.HourlyJobs
import Scadium.Games.Instant.AnchoringTheorems
import Scadium.Games.Lottery.OnChainBooks
import Scadium.Games.Lottery.Split
import Scadium.Programs.Vault.Bets
import Scadium.Programs.Swap.Redemption
import Scadium.Queue.Payouts
import Scadium.Custody.NothingSkipped
import Scadium.Reconciliation.NoFalseAlarm
import Scadium.Queue.Splits
import Scadium.Fair.Streams
import Scadium.Rewards.DailyCase
import Scadium.Rewards.PaidOnce
import Scadium.Auth.Siws
import Scadium.Solana.VaultEvents
import Scadium.Vault.Entry
import Scadium.Solana.OnchainRng
import Scadium.Games.Lottery.Prizes
import Scadium.Games.Reroll
import Scadium.Solana.Accounts
import Scadium.Programs.SlotHashes
import Scadium.Vault.Strategy
import Scadium.Programs.MoneyMath
import Scadium.Fair.Pricing
import Scadium.Redis.LeaderElection
import Scadium.Games.Lottery.Schedule
import Scadium.Games.MaxWin
import Scadium.Programs.Swap.SquareRoot
import Scadium.Programs.Lottery.Safety
import Scadium.Games.Instant.HouseEdge
