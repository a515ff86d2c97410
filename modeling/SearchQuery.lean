import SearchQuery.Main
import SearchQuery.Workbench
import SearchQuery.Proofs.Build
import SearchQuery.Proofs.Endings
import SearchQuery.Proofs.Ranges
import SearchQuery.Proofs.Settings.Spellings
import SearchQuery.Proofs.Timestamp.ReadBack
import SearchQuery.Proofs.Unchanged
import SearchQuery.Proofs.Defaults
import SearchQuery.Proofs.Exclusions
import SearchQuery.Proofs.Negation
import SearchQuery.Proofs.Timestamp.Shape
import SearchQuery.Proofs.DateValues
import SearchQuery.Proofs.Timestamp.Iso
import SearchQuery.Proofs.Rereading
import SearchQuery.Proofs.Calendar
import SearchQuery.Proofs.Chronology
import SearchQuery.Proofs.Timestamp.Rfc3339
import SearchQuery.Proofs.Settings.Merging
import SearchQuery.Proofs.Json.Texts
import SearchQuery.Proofs.Settings.Reloading
import SearchQuery.Proofs.Settings.Clearing
import SearchQuery.Proofs.Shown
import SearchQuery.Proofs.Sameness
import SearchQuery.Proofs.Values
import SearchQuery.Proofs.Respelling
import SearchQuery.Proofs.Membership
