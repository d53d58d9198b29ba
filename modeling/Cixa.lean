import Cixa.AddressGuard
import Cixa.AddressText
import Cixa.Admission
import Cixa.Allowlisting
import Cixa.Amounts
import Cixa.Answers
import Cixa.Approvals
import Cixa.Atomic
import Cixa.Attempts
import Cixa.Authority
import Cixa.Available
import Cixa.Barrier
import Cixa.Books
import Cixa.Budgets
import Cixa.Calls
import Cixa.Canonical
import Cixa.Ceilings
import Cixa.Change
import Cixa.Chars
import Cixa.CheckedInt
import Cixa.Checks
import Cixa.Client
import Cixa.Codec
import Cixa.Confinement
import Cixa.Correspondence
import Cixa.Crashes
import Cixa.Daemon
import Cixa.Data
import Cixa.Deadends
import Cixa.Decisions
import Cixa.Deposits
import Cixa.Dispatch
import Cixa.Domestic
import Cixa.Duplicates
import Cixa.Encode
import Cixa.Entries
import Cixa.Evidence
import Cixa.Execution
import Cixa.Expiry
import Cixa.Fields
import Cixa.Freshness
import Cixa.Gate
import Cixa.Grants
import Cixa.Guarding
import Cixa.Handoff
import Cixa.Host
import Cixa.Income
import Cixa.Intents
import Cixa.IpAddr
import Cixa.Json
import Cixa.JsonText
import Cixa.Keys
import Cixa.Knowing
import Cixa.Lasting
import Cixa.Leaks
import Cixa.Lives
import Cixa.Masking
import Cixa.Matching
import Cixa.Outcome
import Cixa.Owner
import Cixa.Pages
import Cixa.Paging
import Cixa.Paths
import Cixa.Persist
import Cixa.Policy
import Cixa.Pool
import Cixa.ProfileSearch
import Cixa.Profiles
import Cixa.Provider
import Cixa.Queries
import Cixa.Quietly
import Cixa.RateWindow
import Cixa.Redacted
import Cixa.Redaction
import Cixa.Redemption
import Cixa.References
import Cixa.Refunds
import Cixa.Regex
import Cixa.Release
import Cixa.Requests
import Cixa.Revocation
import Cixa.Rpc
import Cixa.Runs
import Cixa.Serving
import Cixa.Sessions
import Cixa.Solvency
import Cixa.SortedMap
import Cixa.Stability
import Cixa.Starvation
import Cixa.Steady
import Cixa.Steps
import Cixa.Strict
import Cixa.Sums
import Cixa.Text
import Cixa.Tightening
import Cixa.Transition
import Cixa.UrlHost
import Cixa.Validity
import Cixa.Verdict
import Cixa.Views
import Cixa.Visibility
import Cixa.Workflow
