import Caflow.Inventory.Ledger
import Caflow.Inventory.Replay
import Caflow.Inventory.Concurrency
import Caflow.Accounting.Journal
import Caflow.Inventory.Documents
import Caflow.Inventory.TieOut
import Caflow.IncomeTax.StatutoryRates
import Caflow.IncomeTax.EntityRates
import Caflow.IncomeTax.Monotone
import Caflow.Lib.SetOff
import Caflow.Gst.CreditLedger
import Caflow.Gst.Rule364
import Caflow.Gst.Gstr3bComputer
import Caflow.Gst.Utilisation
import Caflow.Gst.CreditChain
import Caflow.IncomeTax.LossSetOff
import Caflow.IncomeTax.LossAllocation
import Caflow.IncomeTax.LossRecord
import Caflow.Lib.Interrupted
import Caflow.Settlement.Reversal
import Caflow.Settlement.Atomicity
import Caflow.Lib.TopWindow
import Caflow.Numbering.Series
import Caflow.Lib.SharedTotal
import Caflow.Numbering.Writers
import Caflow.Settlement.PartyCredit
import Caflow.Settlement.CreditConserved
import Caflow.Accounting.Kernel
import Caflow.Lib.Tally
import Caflow.Accounting.OpeningBalance
import Caflow.Accounting.OpeningSync
import Caflow.Inventory.StockResume
import Caflow.Inventory.StockResumed
import Caflow.Accounting.ReverseEntry
import Caflow.Lib.IsoDate
import Caflow.Reporting.Model
import Caflow.Reporting.Projector
import Caflow.Reporting.CashBasis
import Caflow.FixedAssets.ScheduleII
import Caflow.FixedAssets.Depreciation
import Caflow.FixedAssets.Posted
import Caflow.FixedAssets.RoundTrip
import Caflow.FixedAssets.Disposal
import Caflow.Reporting.Builders
import Caflow.Lib.SortByKey
import Caflow.Reporting.Totals
import Caflow.Reporting.BalanceCache
import Caflow.Reporting.Articulation
import Caflow.Reporting.ScheduleIII
import Caflow.Reporting.CashFlow
import Caflow.Lib.Interleaving
import Caflow.Settlement.Payables
import Caflow.Settlement.AppliedOnce
import Caflow.Currency.Conversion
import Caflow.Settlement.PaymentCalls
import Caflow.Settlement.PaymentsConserved
import Caflow.Settlement.Reallocation
import Caflow.Settlement.PaymentBooks
import Caflow.Currency.ForeignSettlement
import Caflow.Inventory.Godowns
import Caflow.Inventory.TransferChain
import Caflow.Banking.Doors
import Caflow.Banking.PostedOnce
import Caflow.Banking.Cheque
import Caflow.Banking.ChequeConverted
import Caflow.Banking.PostUndone
import Caflow.Lib.Drawdown
import Caflow.OrderCycle.Lines
import Caflow.OrderCycle.Sales
import Caflow.OrderCycle.Purchases
import Caflow.OrderCycle.Delivered
import Caflow.OrderCycle.Received
import Caflow.OrderCycle.Kept
import Caflow.Lib.Fifo
import Caflow.Tds.ChallanMapping
import Caflow.Tds.FairMapping
import Caflow.Banking.BalanceAgreement
import Caflow.Tds.AggregateLimit
import Caflow.Tds.DepositAgreement
import Caflow.Tds.DepositAnswers
import Caflow.Mail.OutboxKept
import Caflow.Recurring.CaughtUp
import Caflow.Banking.StatementSound
import Caflow.Gst.Rule37
import Caflow.Gst.Rule43
import Caflow.Gst.Section186
import Caflow.Payroll.SalaryStructure
import Caflow.Payroll.Arrears
import Caflow.Gst.ItcOrder
import Caflow.Gst.DocumentSeries
import Caflow.Gst.DriftReport
import Caflow.Gst.JobWorkAccounted
import Caflow.Gst.Gstin
import Caflow.Banking.Rules
import Caflow.Reporting.RoundSection
import Caflow.Banking.ReconciliationStatement
import Caflow.Lib.GreedyMatching
import Caflow.Banking.Transfers
import Caflow.Lib.Delimited
import Caflow.Payroll.Ecr
import Caflow.Payroll.EcrFilings
import Caflow.Lib.FifoLayers
import Caflow.Reporting.StockAgeing
import Caflow.Lib.Coverage
import Caflow.FixedAssets.AmortisationReclass
import Caflow.FixedAssets.ReclassInCredit
import Caflow.FixedAssets.WithinDepreciable
import Caflow.Accounting.SpreadsheetCells
import Caflow.Accounting.VoucherImport
import Caflow.Accounting.VoucherImported
import Caflow.Accounting.OpeningImported
import Caflow.Inventory.Issues
import Caflow.Inventory.FairShares
import Caflow.OrderCycle.Repriced
import Caflow.Recurring.Dated
import Caflow.IncomeTax.LossAcknowledged
import Caflow.Gst.ItcRows
import Caflow.Reporting.StatementCut
import Caflow.IncomeTax.Section32
import Caflow.IncomeTax.HoldingPeriod
import Caflow.IncomeTax.BasicExemption
import Caflow.IncomeTax.DefermentInterest
import Caflow.Banking.Dedup
import Caflow.Purchases.BillEntryBalances
import Caflow.Receivables.InterestOnce
import Caflow.Currency.Revalued
import Caflow.Scheduler.DailyJobs
import Caflow.Payments.OneReceipt
import Caflow.Payments.UnsignedRequests
import Caflow.Reporting.AgeingAgreement
