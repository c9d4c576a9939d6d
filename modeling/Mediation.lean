import Mediation.Price
import Mediation.Json.Reader
import Mediation.Json.Writer
import Mediation.Ad
import Mediation.Adapter.InitConfig
import Mediation.Geo
import Mediation.SdkVersion
import Mediation.Request
import Mediation.Segment
import Mediation.Adapter.Throttle
import Mediation.Auction.Floor
import Mediation.AdUnit.Buckets
import Mediation.Inventory
import Mediation.OpenRtb.Request
import Mediation.Bidding.Response
import Mediation.Auction.Events
import Mediation.Bidding.Round
import Mediation.Bidding.Profiles
import Mediation.Auction.Http
import Mediation.Settings.Reader
import Mediation.Logging
import Mediation.Proofs.Activity
import Mediation.Proofs.Auction.Assembly
import Mediation.Proofs.Bidding.FanOut
import Mediation.Proofs.Auction.Course
import Mediation.Proofs.Auction.ChildDirected
import Mediation.Proofs.Auction.Repetition
import Mediation.Proofs.Auction.Precedence
import Mediation.Proofs.Auction.Outcome
import Mediation.Proofs.Auction.Accounting
import Mediation.Proofs.Auction.Progress
import Mediation.Proofs.Auction.Deadline
import Mediation.Proofs.Auction.Ranking
import Mediation.Proofs.Auction.Floor
import Mediation.Proofs.Event.Atomicity
import Mediation.Proofs.Event.Isolation
import Mediation.Proofs.Auction.Independence
import Mediation.Proofs.Auction.Provenance
import Mediation.Proofs.Auction.Monotonicity
import Mediation.Proofs.Auction.Extension
import Mediation.Proofs.Auction.Telling
import Mediation.Proofs.Bidding.Layers
import Mediation.Proofs.Recoding.Request
import Mediation.Proofs.Recoding.OpenRtb
import Mediation.Proofs.Recoding.Auction
import Mediation.Proofs.Recoding.Settings
import Mediation.Proofs.Recoding.WireFormat
import Mediation.Proofs.Json.Distinct
import Mediation.Proofs.Auction.Readability
import Mediation.Proofs.Auction.Resolution
import Mediation.Proofs.Auction.Gate
import Mediation.Proofs.AdUnit.Extra
import Mediation.Proofs.Auction.Conversion
import Mediation.Proofs.Auction.Mediator
import Mediation.Proofs.Auction.Segmentation
import Mediation.Proofs.Auction.Key
import Mediation.Proofs.SdkVersion
import Mediation.Proofs.AdUnit.Overlay
import Mediation.Proofs.Event.Flattening
import Mediation.Proofs.Bidding.Offers
import Mediation.Proofs.Throttling
import Mediation.Proofs.Auction.Notification
import Mediation.Proofs.AdUnit.Grouping
import Mediation.Proofs.Auction.Columns
