/-
What can go wrong in an auction, the text that says so, and what a client is told. Errors of a
collaborator keep their detail in the logs: the client sees only that something failed.
-/
import Mediation.Json.Record

namespace Mediation

/-- Why a step of an auction failed. -/
inductive AuctionError where
  /-- No unit, no candidate or no adapter is left. -/
  | noAdsFound
  /-- A pinned configuration does not resolve. -/
  | invalidAuctionKey
  /-- The version of the SDK is missing or unreadable. -/
  | invalidSdkVersion
  /-- No adapter has initialisation settings. -/
  | noAdaptersFound
  /-- The request cannot be decoded or fails a check. -/
  | badRequest (detail : String)
  /-- A store failed. -/
  | store (detail : String)
  /-- A bidder or the bidding round failed. -/
  | bidding (detail : String)
  /-- An event cannot be represented or handed over. -/
  | event (detail : String)
  /-- Settings cannot be read or are out of range. -/
  | configuration (detail : String)
  deriving DecidableEq, Repr

namespace AuctionError

def message : AuctionError → String
  | noAdsFound => "No ads found"
  | invalidAuctionKey => "Invalid auction key"
  | invalidSdkVersion => "Invalid SDK version"
  | noAdaptersFound => "No adapters found"
  | badRequest d => "Bad request: " ++ d
  | store d => "Store error: " ++ d
  | bidding d => "Bidding error: " ++ d
  | event d => "Event error: " ++ d
  | configuration d => "Configuration error: " ++ d

/-- Whether the cause lies with the request rather than with the service. -/
def isClientFault : AuctionError → Bool
  | noAdsFound | invalidAuctionKey | invalidSdkVersion | noAdaptersFound | badRequest _ => true
  | store _ | bidding _ | event _ | configuration _ => false

/-- HTTP status of an error. -/
def status (e : AuctionError) : Nat := if e.isClientFault then 422 else 500

/-- What the client is told. -/
def userMessage (e : AuctionError) : String :=
  if e.isClientFault then e.message else "Internal server error"

/-- Whether the error is one of the four outcomes that SDKs know by name. -/
def isCategorical : AuctionError → Bool
  | noAdsFound | invalidAuctionKey | invalidSdkVersion | noAdaptersFound => true
  | _ => false

end AuctionError

end Mediation
