import Ripple.Graph.Record
import Ripple.Config.Record
import Ripple.Config.File
import Ripple.Session.Operation
import Ripple.Proofs.Impact.Graph
import Ripple.Proofs.Impact.Search
import Ripple.Proofs.Impact.Iteration
import Ripple.Proofs.Impact.Deepen
import Ripple.Proofs.Impact.Reach
import Ripple.Proofs.Impact.Plain
import Ripple.Proofs.Impact.Failure
import Ripple.Proofs.Impact.Frontier
import Ripple.Proofs.Json.Decimals
import Ripple.Proofs.Json.Quoted
import Ripple.Proofs.Json.RoundTrip
import Ripple.Proofs.Store.Rows
import Ripple.Proofs.Store.Log
import Ripple.Proofs.Session.Calls
import Ripple.Proofs.Session.Mirror
import Ripple.Proofs.Session.Reads
import Ripple.Proofs.Session.Readable
import Ripple.Proofs.FullText.Substring
import Ripple.Proofs.Store.Search
import Ripple.Proofs.Session.Searches
import Ripple.Proofs.Session.Upserts
import Ripple.Proofs.Session.Additions
import Ripple.Proofs.Session.Growth
import Ripple.Proofs.Session.Outside
import Ripple.Proofs.Session.Order
import Ripple.Proofs.Store.Migration
import Ripple.Proofs.Session.Upgrade
import Ripple.Proofs.Session.Reopening
import Ripple.Proofs.Config.Runs
import Ripple.Proofs.Session.Trail
import Ripple.Proofs.Time.Lenient
import Ripple.Proofs.Json.Members
import Ripple.Proofs.Record.Codec
import Ripple.Proofs.Record.Fields
import Ripple.Proofs.Record.Layout
import Ripple.Proofs.Record.Tagged
import Ripple.Proofs.Record.RoundTrip
import Ripple.Proofs.Text.Utf8
import Ripple.Proofs.Store.Location
import Ripple.Proofs.Store.Opening
import Ripple.Proofs.Session.Sharing
import Ripple.Proofs.Session.Tallies
import Ripple.Proofs.Impact.Requests
import Ripple.Proofs.Config.Keys
import Ripple.Proofs.Session.Faults
import Ripple.Proofs.Session.Recording
