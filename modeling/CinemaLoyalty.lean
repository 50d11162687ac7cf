import CinemaLoyalty.Lib.OwnerSerial
import CinemaLoyalty.Lib.WaitFor
import CinemaLoyalty.Lib.Attempts
import CinemaLoyalty.Lib.Keyset
import CinemaLoyalty.Lib.Validation
import CinemaLoyalty.Lib.JsonText
import CinemaLoyalty.Lib.Strip
import CinemaLoyalty.Calendar
import CinemaLoyalty.Dates
import CinemaLoyalty.Schema
import CinemaLoyalty.Store
import CinemaLoyalty.Calculator
import CinemaLoyalty.Transaction
import CinemaLoyalty.PointCommands
import CinemaLoyalty.Achievements
import CinemaLoyalty.Purchase
import CinemaLoyalty.Birthday
import CinemaLoyalty.Admin
import CinemaLoyalty.Expiration
import CinemaLoyalty.Jobs
import CinemaLoyalty.GoldUpgrade
import CinemaLoyalty.Service
import CinemaLoyalty.Effects
import CinemaLoyalty.Books
import CinemaLoyalty.Idempotency
import CinemaLoyalty.Compensation
import CinemaLoyalty.Discount
import CinemaLoyalty.Purchases
import CinemaLoyalty.Tiers
import CinemaLoyalty.PurchaseAwards
import CinemaLoyalty.Counters
import CinemaLoyalty.Unlocks
import CinemaLoyalty.Lib.Tally
import CinemaLoyalty.AchievementRuns
import CinemaLoyalty.AchievementOrder
import CinemaLoyalty.AchievementIncrements
import CinemaLoyalty.AchievementIsolation
import CinemaLoyalty.Markers
import CinemaLoyalty.Owners
import CinemaLoyalty.Concurrency
import CinemaLoyalty.Deadlock
import CinemaLoyalty.Atomicity
import CinemaLoyalty.Grants
import CinemaLoyalty.GoldReservations
import CinemaLoyalty.BatchJobs
import CinemaLoyalty.Lib.KeysetScan
import CinemaLoyalty.JobRuns
import CinemaLoyalty.BirthdayJob
import CinemaLoyalty.BirthdaySetter
import CinemaLoyalty.Lib.Transition
import CinemaLoyalty.Anniversaries
import CinemaLoyalty.Numbers
import CinemaLoyalty.LocalDates
import CinemaLoyalty.BirthdayWeek
import CinemaLoyalty.CreditExpiry
import CinemaLoyalty.Notifications
import CinemaLoyalty.Lib.Paging
import CinemaLoyalty.Profile
import CinemaLoyalty.Listings
import CinemaLoyalty.Statements
import CinemaLoyalty.GoldAvailability
import CinemaLoyalty.Delivery.Rows
import CinemaLoyalty.Delivery.Handle
import CinemaLoyalty.Delivery.Machine
import CinemaLoyalty.Delivery.Budget
import CinemaLoyalty.Delivery.Acknowledge
import CinemaLoyalty.Delivery.Setter
import CinemaLoyalty.Delivery.Replay
import CinemaLoyalty.Delivery.Publish
import CinemaLoyalty.Intents.Rows
import CinemaLoyalty.Intents.Pipeline
import CinemaLoyalty.Intents.Publisher
import CinemaLoyalty.Outbox.Rows
import CinemaLoyalty.Outbox.Publisher
import CinemaLoyalty.Outbox.Fencing
import CinemaLoyalty.Outbox.Announcements
import CinemaLoyalty.Outbox.Undisturbed
import CinemaLoyalty.Outbox.Draining
import CinemaLoyalty.Environment
import CinemaLoyalty.EnvironmentRules
import CinemaLoyalty.Criteria
import CinemaLoyalty.CriteriaAgreement
import CinemaLoyalty.Definitions.Runs
import CinemaLoyalty.Definitions.Listing
import CinemaLoyalty.Delivery.InboundRefusals
import CinemaLoyalty.EndToEnd
