import SalesDashboard.Lib.Transition
import SalesDashboard.Lib.VersionChain
import SalesDashboard.Aging.Buckets
import SalesDashboard.CreditPolicy.Sound
import SalesDashboard.Filters.Cascade
import SalesDashboard.Marcom.Chains
import SalesDashboard.Marcom.Duplicates
import SalesDashboard.MarcomKpi.Reconcile
import SalesDashboard.SalesBuild.Trigger
import SalesDashboard.EtlRuns.Exclusive
import SalesDashboard.EtlRuns.ProcessJob
import SalesDashboard.EtlPlatform.Discipline
import SalesDashboard.EtlPlatform.Isolation
import SalesDashboard.EtlPlatform.Replace
import SalesDashboard.EtlPlatform.Canonical
import SalesDashboard.Mirror.Converge
import SalesDashboard.Mirror.Signal
import SalesDashboard.DataScope.Enforced
import SalesDashboard.DataScope.Wall
import SalesDashboard.Accounts.Admins
import SalesDashboard.Accounts.Lock
import SalesDashboard.Accounts.RoleStore
import SalesDashboard.Tachometer.Reconcile
import SalesDashboard.CriticalNumber.Agrees
import SalesDashboard.Receivables.Reconcile
import SalesDashboard.Collections.Conserve
import SalesDashboard.ArWeekly.Movement
import SalesDashboard.NpsFollowup.History
import SalesDashboard.NpsFollowup.Ageing
import SalesDashboard.NpsFollowup.Lifecycle
import SalesDashboard.PeriodAxis.Trend
import SalesDashboard.ProductPages.Excluded
import SalesDashboard.SalesPipeline.QuotationClassification
import SalesDashboard.Lib.FailPoints
import SalesDashboard.EtlPlatform.Swap
import SalesDashboard.EtlPlatform.SwapSafe
import SalesDashboard.EtlPlatform.SwapWhole
import SalesDashboard.Lib.Regex
import SalesDashboard.NpsRatings.CommentText
import SalesDashboard.NpsRatings.Phone
import SalesDashboard.NpsRatings.LongRuns
import SalesDashboard.NpsRatings.Masking
import SalesDashboard.NpsRatings.Masked
import SalesDashboard.Conformed.KeyMaps
import SalesDashboard.NpsRatings.Transform
import SalesDashboard.NpsRatings.Linked
import SalesDashboard.NpsRatings.Partition
import SalesDashboard.SalesPipeline.ValueClasses
import SalesDashboard.CustomerGrowth.NewCustomers
import SalesDashboard.MarcomKpi.RatOps
import SalesDashboard.MarcomKpi.Decimal
import SalesDashboard.MarcomKpi.RatField
import SalesDashboard.Marcom.ZipAccepted
import SalesDashboard.ActivityMomentum.Reconcile
import SalesDashboard.MarcomKpi.Digital
import SalesDashboard.MarcomKpi.Superseded
import SalesDashboard.MarcomKpi.DigitalReconcile
import SalesDashboard.NpsFollowup.Summary
import SalesDashboard.NpsFollowup.Charted
import SalesDashboard.NpsFollowup.SummaryReconcile
import SalesDashboard.ProductDashboard.Overview
import SalesDashboard.ProductDashboard.Figures
import SalesDashboard.ProductDashboard.CompanyWall
import SalesDashboard.ProductDashboard.Totals
import SalesDashboard.Filters.Options
import SalesDashboard.Accounts.Sessions
import SalesDashboard.Accounts.Accepted
import SalesDashboard.Accounts.Credentials
import SalesDashboard.EtlApi.JobTracker
import SalesDashboard.EtlApi.OneProcess
import SalesDashboard.EtlApi.OneActive
import SalesDashboard.EtlApi.LogPolling
import SalesDashboard.Lib.Files
import SalesDashboard.EtlApi.InputFiles
import SalesDashboard.EtlApi.UploadsKept
import SalesDashboard.EtlApi.UploadsAndRuns
import SalesDashboard.Extraction.Raw
import SalesDashboard.Extraction.Caught
import SalesDashboard.Extraction.Converge
