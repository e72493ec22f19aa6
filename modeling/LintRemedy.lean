import LintRemedy.Main
import LintRemedy.Proofs.Accounts
import LintRemedy.Proofs.Disabled
import LintRemedy.Proofs.EditCounts
import LintRemedy.Proofs.Idempotence
import LintRemedy.Proofs.Lexemes
import LintRemedy.Proofs.Schedules
import LintRemedy.Proofs.Statuses
import LintRemedy.Proofs.Visibility
import LintRemedy.Tree
import LintRemedy.Proofs.Faults
import LintRemedy.Proofs.Relevance
import LintRemedy.Proofs.DryRun
import LintRemedy.Proofs.Triage
import LintRemedy.Proofs.SkipReasons
import LintRemedy.Proofs.FileCounts
import LintRemedy.Proofs.NestedLists
import LintRemedy.Proofs.CatchClauses
import LintRemedy.Proofs.Announcements
import LintRemedy.Proofs.Decoding
import LintRemedy.Proofs.Loading
import LintRemedy.Proofs.MergeOrder
import LintRemedy.Proofs.Encoding
import LintRemedy.Proofs.OtherFields
import LintRemedy.Proofs.Arrangement
import LintRemedy.Proofs.Tally
import LintRemedy.Proofs.TriageOrder
import LintRemedy.Proofs.BracketPairs
import LintRemedy.Proofs.Documents
import LintRemedy.Proofs.Settings
