import ReviewRota.Configuration.Settings
import ReviewRota.Proofs.Desk.Cancelling
import ReviewRota.Proofs.Desk.Enlisting
import ReviewRota.Proofs.Desk.Ensuring
import ReviewRota.Proofs.Desk.Limits
import ReviewRota.Proofs.Desk.Overview
import ReviewRota.Proofs.Desk.Policy
import ReviewRota.Proofs.Desk.Reassigning
import ReviewRota.Proofs.Http.Answering
import ReviewRota.Proofs.Http.Errors
import ReviewRota.Proofs.Http.Refusing
import ReviewRota.Proofs.Interleaving.Merging
import ReviewRota.Proofs.Interleaving.Soundness
import ReviewRota.Proofs.Interleaving.Winning
import ReviewRota.Proofs.Roster.Selection
import ReviewRota.Proofs.Store.Attaining
import ReviewRota.Proofs.Desk.Opening
import ReviewRota.Proofs.Desk.Deactivating
import ReviewRota.Proofs.Desk.Dormancy
import ReviewRota.Proofs.Scenario.Dormancy
import ReviewRota.Proofs.Interleaving.Rosters
import ReviewRota.Proofs.Store.Exchanging
import ReviewRota.Proofs.Desk.Founding
import ReviewRota.Proofs.Desk.Merging
import ReviewRota.Proofs.Desk.Accounting
import ReviewRota.Proofs.Desk.Steadfast
import ReviewRota.Proofs.Desk.Retrying
import ReviewRota.Proofs.Deadline
import ReviewRota.Proofs.Store.Placing
import ReviewRota.Proofs.Desk.Callers
import ReviewRota.Proofs.Configuration.DatabaseUrl
import ReviewRota.Proofs.Http.Teams
import ReviewRota.Proofs.Http.Members
import ReviewRota.Proofs.Configuration.Escapes
