import BankStatementProcessor.Desktop.Properties.OfflineGrace
import BankStatementProcessor.Desktop.Properties.StatementRows
import BankStatementProcessor.Desktop.Properties.VisibleRow
import BankStatementProcessor.LicenseServer.Properties.BillingPeriod
import BankStatementProcessor.LicenseServer.Properties.CapturedAmount
import BankStatementProcessor.LicenseServer.Properties.ClientIp
import BankStatementProcessor.LicenseServer.Properties.Correlation
import BankStatementProcessor.LicenseServer.Properties.DeviceLimit
import BankStatementProcessor.LicenseServer.Properties.FailedCalls
import BankStatementProcessor.LicenseServer.Properties.LicenseStatus
import BankStatementProcessor.LicenseServer.Properties.OneLicense
import BankStatementProcessor.LicenseServer.Properties.OwnershipMasking
import BankStatementProcessor.LicenseServer.Properties.Reactivation
import BankStatementProcessor.LicenseServer.Properties.Reconciliation
import BankStatementProcessor.LicenseServer.Properties.Refund
import BankStatementProcessor.LicenseServer.Properties.StatusAgreement
import BankStatementProcessor.Desktop.Export.Accounting
import BankStatementProcessor.Desktop.Properties.ClockWatermark
import BankStatementProcessor.Desktop.Properties.TamperEvidence
import BankStatementProcessor.Infra.DoubleEntry
import BankStatementProcessor.Desktop.Properties.BankLegs
import BankStatementProcessor.Infra.Regex
import BankStatementProcessor.Desktop.Classifier
import BankStatementProcessor.Desktop.Properties.VoucherDirection
import BankStatementProcessor.Desktop.Parser.Balances
import BankStatementProcessor.Desktop.Properties.BalanceCheck
import BankStatementProcessor.Desktop.Properties.BalanceRepair
import BankStatementProcessor.Desktop.Parser.AmountParser
import BankStatementProcessor.Infra.Calendar
import BankStatementProcessor.Desktop.Parser.DateParser
import BankStatementProcessor.Desktop.Parser.NoiseFilter
import BankStatementProcessor.Desktop.Parser.ExcelParser
import BankStatementProcessor.Desktop.Properties.GridRows
import BankStatementProcessor.Desktop.Parser.PdfParser
import BankStatementProcessor.Desktop.Properties.PdfRows
import BankStatementProcessor.Desktop.Rules
import BankStatementProcessor.Desktop.Properties.RulesJson
import BankStatementProcessor.Desktop.Properties.RulesBackup
import BankStatementProcessor.Desktop.Reconciliation
import BankStatementProcessor.Desktop.Properties.ReconciledOnce
import BankStatementProcessor.Desktop.Migrations
import BankStatementProcessor.Desktop.Properties.CrashSafeMigrations
import BankStatementProcessor.Desktop.Encryption
import BankStatementProcessor.Desktop.Properties.EncryptedStore
import BankStatementProcessor.Desktop.Screen
import BankStatementProcessor.Desktop.Properties.ScreenStore
import BankStatementProcessor.Desktop.Properties.UndoTarget
import BankStatementProcessor.Infra.Display
import BankStatementProcessor.Desktop.Loading
import BankStatementProcessor.Desktop.Properties.RetriedLoad
import BankStatementProcessor.Desktop.Properties.TrueRepeats
import BankStatementProcessor.Desktop.Properties.StableMatching
import BankStatementProcessor.Infra.Rounding
import BankStatementProcessor.Desktop.Properties.Tolerance
import BankStatementProcessor.Desktop.ImportHistory
import BankStatementProcessor.Desktop.Properties.DeletedImport
import BankStatementProcessor.Desktop.Properties.HistoryIndex
import BankStatementProcessor.Desktop.AiClassify
import BankStatementProcessor.Desktop.Properties.AiSnapshot
import BankStatementProcessor.Infra.Filing
import BankStatementProcessor.Desktop.LegacyImport
import BankStatementProcessor.Desktop.LegacyMigration
import BankStatementProcessor.Desktop.Properties.LegacyPhases
import BankStatementProcessor.Desktop.Properties.LegacyEntities
import BankStatementProcessor.Desktop.Properties.LegacyHistory
import BankStatementProcessor.Desktop.Properties.MigrationCounters
import BankStatementProcessor.Desktop.Properties.RerunImport
import BankStatementProcessor.Infra.Csv
import BankStatementProcessor.Desktop.ReconciliationFiles
import BankStatementProcessor.Desktop.Properties.ReportCsv
import BankStatementProcessor.Desktop.Properties.TallyVouchers
import BankStatementProcessor.Desktop.Parser.AmountFormat
import BankStatementProcessor.Desktop.Properties.MoneyText
import BankStatementProcessor.Desktop.Properties.AmountRange
import BankStatementProcessor.Infra.DisplayText
import BankStatementProcessor.Desktop.Properties.ExactDedup
import BankStatementProcessor.Desktop.Parser.DateText
import BankStatementProcessor.Desktop.Properties.DateRoundTrip
import BankStatementProcessor.Desktop.Parser.ColumnBoundaries
import BankStatementProcessor.Infra.Fences
import BankStatementProcessor.Infra.Nearest
import BankStatementProcessor.Desktop.Properties.ColumnRanges
import BankStatementProcessor.Desktop.Parser.ColumnDetector
import BankStatementProcessor.Desktop.Properties.ColumnRoles
import BankStatementProcessor.Desktop.Parser.CsvParser
import BankStatementProcessor.Desktop.Properties.CombinedSuffix
import BankStatementProcessor.Infra.Words
import BankStatementProcessor.Desktop.Properties.DateShape
import BankStatementProcessor.Desktop.Properties.TimeSuffix
import BankStatementProcessor.Infra.Hundredths
import BankStatementProcessor.Desktop.Parser.OcrParser
import BankStatementProcessor.Desktop.Properties.OcrDirection
import BankStatementProcessor.Infra.Sheet
import BankStatementProcessor.Desktop.Export.Excel
import BankStatementProcessor.Desktop.Reimport
import BankStatementProcessor.Desktop.Properties.ExcelRoundTrip
import BankStatementProcessor.Infra.Clusters
import BankStatementProcessor.Desktop.Parser.RowBuilder
import BankStatementProcessor.Desktop.Properties.RowClusters
import BankStatementProcessor.Infra.Utf8
import BankStatementProcessor.Desktop.GstTag
import BankStatementProcessor.Desktop.Properties.GstinWindow
import BankStatementProcessor.Desktop.Export.TallyXml
import BankStatementProcessor.Desktop.Export.AccountingFiles
import BankStatementProcessor.Desktop.Properties.OneSelection
import BankStatementProcessor.Desktop.Properties.BalancedVouchers
import BankStatementProcessor.Infra.Lexical
import BankStatementProcessor.Desktop.Export.DateRange
import BankStatementProcessor.Desktop.Properties.ExportRange
import BankStatementProcessor.Desktop.Properties.CsvCells
import BankStatementProcessor.Infra.CsvLines
import BankStatementProcessor.Infra.Xml
import BankStatementProcessor.Infra.XmlText
import BankStatementProcessor.Desktop.Properties.TallyDocument
import BankStatementProcessor.Desktop.Properties.XmlTexts
import BankStatementProcessor.Infra.Matching
import BankStatementProcessor.Infra.HashOrder
import BankStatementProcessor.Desktop.NarrationCleaner
import BankStatementProcessor.Desktop.TallyGroupEngine
import BankStatementProcessor.Desktop.Properties.TallyGroups
import BankStatementProcessor.Desktop.PartyMaster
import BankStatementProcessor.Desktop.Properties.PartialNames
import BankStatementProcessor.Desktop.Properties.CanonicalNames
import BankStatementProcessor.Desktop.Properties.SettledNames
import BankStatementProcessor.Desktop.Properties.LedgerNames
import BankStatementProcessor.Infra.Ascii
import BankStatementProcessor.Desktop.Parser.TransactionExtractor
import BankStatementProcessor.Desktop.Properties.RulingLines
import BankStatementProcessor.Desktop.Parser.OcrCorrection
import BankStatementProcessor.Desktop.Properties.BankTerms
import BankStatementProcessor.Desktop.ClosingCheck
import BankStatementProcessor.Desktop.Properties.ClosingBalance
import BankStatementProcessor.Infra.Marking
import BankStatementProcessor.Desktop.Duplicates
import BankStatementProcessor.Desktop.Properties.DuplicateRows
import BankStatementProcessor.Desktop.Properties.ClassifyTwice
import BankStatementProcessor.Desktop.Properties.IndianGroups
import BankStatementProcessor.Infra.Utf8Bytes
import BankStatementProcessor.Desktop.TextSafety
import BankStatementProcessor.Desktop.Properties.SafeSlices
import BankStatementProcessor.Desktop.Dashboard
import BankStatementProcessor.Desktop.Properties.DrillDown
import BankStatementProcessor.Infra.CivilDate
import BankStatementProcessor.Desktop.DatePresets
import BankStatementProcessor.Desktop.Properties.FinancialYear
import BankStatementProcessor.Infra.Hex
import BankStatementProcessor.LicenseServer.Auth
import BankStatementProcessor.LicenseServer.Properties.Sessions
import BankStatementProcessor.LicenseServer.Properties.SignedWebhooks
import BankStatementProcessor.Desktop.Properties.NearestTerm
import BankStatementProcessor.Desktop.Properties.ClientData
