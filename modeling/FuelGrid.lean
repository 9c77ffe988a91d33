import FuelGrid.Stock.RunningBalance
import FuelGrid.Stock.BalanceForward
import FuelGrid.Stock.SealRace
import FuelGrid.Accounting.BalanceSheet
import FuelGrid.Accounting.PeriodLock
import FuelGrid.Accounting.CleanClose
import FuelGrid.Forecourt.MeterChain
import FuelGrid.Forecourt.BatchVerification
import FuelGrid.Station.DayLock
import FuelGrid.Station.ApprovalGates
import FuelGrid.Stock.Sales
import FuelGrid.Revenue.ShiftReconciliation
import FuelGrid.Revenue.DayFreeze
import FuelGrid.Revenue.Idempotency
import FuelGrid.Receivables.SubLedger
import FuelGrid.Payables.ControlAccount
import FuelGrid.Revenue.ReceivablesControl
import FuelGrid.Credit.RunningBalance
import FuelGrid.Credit.OneRule
import FuelGrid.Revenue.FiniteMoney
import FuelGrid.Procurement.MatchStatus
import FuelGrid.Procurement.DoubleBilling
import FuelGrid.Events.Delivery
import FuelGrid.Banking.SeparationOfDuties
import FuelGrid.Expenses.PettyCash
import FuelGrid.Stock.OpeningFirst
import FuelGrid.Governance.RequiredRole
import FuelGrid.Revenue.Recognition
import FuelGrid.Identity.RateLimit
import FuelGrid.Pricing.PriceBoard
import FuelGrid.Workforce.Rotation
import FuelGrid.Risk.StationScores
import FuelGrid.Credit.Statements
import FuelGrid.Fleet.Odometer
import FuelGrid.Credit.Alerts
import FuelGrid.Text.MeterDecimals
import FuelGrid.Identity.Redirect
