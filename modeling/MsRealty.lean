import MsRealty.AlertRuns
import MsRealty.PublicationRuns
import MsRealty.TransitionRuns
import MsRealty.SessionRuns
import MsRealty.SearchPaging
import MsRealty.PrivacyTailLaws
import MsRealty.WatchdogRounds
import MsRealty.KeyCustodyRuns
import MsRealty.WorkingDraft
import MsRealty.EditorialRuns
import MsRealty.DelegationRuns
import MsRealty.ProposalInterests
import MsRealty.FactFenceRuns
import MsRealty.AiBudgetRuns
import MsRealty.ResendInboxSweeps
import MsRealty.BreakGlass
import MsRealty.LockoutRuns
import MsRealty.CsvRoundTrip
import MsRealty.StaffedResponse
import MsRealty.ClosedCases
import MsRealty.DocumentVersions
import MsRealty.IntakeRuns
import MsRealty.MoneyAmounts
import MsRealty.DateTimeEntry
import MsRealty.PermissionAgreement
import MsRealty.CustodyHash
import MsRealty.ArtifactSources
import MsRealty.ReleaseReports
import MsRealty.FactRevision
import MsRealty.ProposalContent
import MsRealty.RateLimitPruning
import MsRealty.CalendarFile
import MsRealty.GalleryRuns
import MsRealty.ImportedDraft
import MsRealty.AssistMerge
import MsRealty.CaseEmailStates
import MsRealty.ByteRanges
import MsRealty.MediaRenditions
import MsRealty.GatewayRedirects
