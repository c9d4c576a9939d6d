/-
Bid responses, in the part of OpenRTB 2 that all bidders share: bids grouped by the seat that makes
them. Records are open: members that have no field here are kept.
-/
import Mediation.Json.Record
import Mediation.Price

namespace Mediation.OpenRtb

/-- One bid. -/
structure Bid where
  id : String
  impid : String
  price : Price
  adm : Option String
  adid : Option String
  nurl : Option String
  burl : Option String
  lurl : Option String
  extra : Dict String Json
  deriving DecidableEq

namespace Bid

def toJson (b : Bid) : Json :=
  .openRecord
    ([("id", .str b.id), ("impid", .str b.impid), ("price", b.price.toJson)]
      ++ Json.present "adm" .str b.adm ++ Json.present "adid" .str b.adid
      ++ Json.present "nurl" .str b.nurl ++ Json.present "burl" .str b.burl
      ++ Json.present "lurl" .str b.lurl)
    b.extra

def ofJson? (v : Json) : Option Bid := do
  let (fs, extra) ← v.openFields? ["id", "impid", "price", "adm", "adid", "nurl", "burl", "lurl"]
  some {
    id := ← fs.withDefault "id" "" Json.str?
    impid := ← fs.withDefault "impid" "" Json.str?
    price := ← fs.required "price" Price.ofJson?
    adm := ← fs.optional "adm" Json.str?
    adid := ← fs.optional "adid" Json.str?
    nurl := ← fs.optional "nurl" Json.str?
    burl := ← fs.optional "burl" Json.str?
    lurl := ← fs.optional "lurl" Json.str?
    extra := extra
  }

end Bid

/-- The bids of one seat. -/
structure SeatBid where
  bids : List Bid
  seat : Option String
  extra : Dict String Json
  deriving DecidableEq

namespace SeatBid

def toJson (s : SeatBid) : Json :=
  .openRecord ([("bid", .ofList Bid.toJson s.bids)] ++ Json.present "seat" .str s.seat) s.extra

def ofJson? (v : Json) : Option SeatBid := do
  let (fs, extra) ← v.openFields? ["bid", "seat"]
  some {
    bids := ← fs.withDefault "bid" [] (Json.list? Bid.ofJson?)
    seat := ← fs.optional "seat" Json.str?
    extra := extra
  }

end SeatBid

/-- An answer to a bid request. -/
structure BidResponse where
  id : String
  seats : List SeatBid
  extra : Dict String Json
  deriving DecidableEq

namespace BidResponse

def toJson (r : BidResponse) : Json :=
  .openRecord [("id", .str r.id), ("seatbid", .ofList SeatBid.toJson r.seats)] r.extra

def ofJson? (v : Json) : Option BidResponse := do
  let (fs, extra) ← v.openFields? ["id", "seatbid"]
  some {
    id := ← fs.withDefault "id" "" Json.str?
    seats := ← fs.withDefault "seatbid" [] (Json.list? SeatBid.ofJson?)
    extra := extra
  }

/-- All bids with the seat of each, seat by seat. -/
def offers (r : BidResponse) : List (Bid × Option String) :=
  r.seats.flatMap fun s => s.bids.map fun b => (b, s.seat)

/-- The better of two offers: the one whose price ranks higher, the later one of equal ranks. -/
def better (a b : Bid × Option String) : Bid × Option String :=
  if b.1.price.rank < a.1.price.rank then a else b

/-- The offer with the highest price, with its seat; the last one of several. -/
def best (r : BidResponse) : Option (Bid × Option String) :=
  match r.offers with
  | [] => none
  | o :: os => some (os.foldl better o)

end BidResponse

end Mediation.OpenRtb
