import SimpleProcessMonitor.CredentialChecks
import SimpleProcessMonitor.LedgerChecks
import SimpleProcessMonitor.ReportChecks
import SimpleProcessMonitor.StartupChecks
import SimpleProcessMonitor.SelectionChecks
import SimpleProcessMonitor.OutcomeChecks
import SimpleProcessMonitor.TickChecks
import SimpleProcessMonitor.StatChecks
import SimpleProcessMonitor.NameChecks
import SimpleProcessMonitor.FailureChecks
import SimpleProcessMonitor.MemoryChecks
import SimpleProcessMonitor.CpuLineChecks
import SimpleProcessMonitor.SearchChecks
import SimpleProcessMonitor.ReplaceChecks
import SimpleProcessMonitor.AppendChecks
import SimpleProcessMonitor.EscapeChecks
import SimpleProcessMonitor.AffixChecks
import SimpleProcessMonitor.NumberChecks
import SimpleProcessMonitor.TrimChecks
import SimpleProcessMonitor.TaskPathChecks
import SimpleProcessMonitor.MonitorChecks
import SimpleProcessMonitor.LogChecks
import SimpleProcessMonitor.KernelChecks
import SimpleProcessMonitor.SystemImageChecks
import SimpleProcessMonitor.HistoryChecks
import SimpleProcessMonitor.TotalsChecks
import SimpleProcessMonitor.TopReportChecks
import SimpleProcessMonitor.StringBufferApiChecks
import SimpleProcessMonitor.ThreadTreeChecks
import SimpleProcessMonitor.StrRunChecks
import SimpleProcessMonitor.CompareChecks
import SimpleProcessMonitor.MessageChecks
