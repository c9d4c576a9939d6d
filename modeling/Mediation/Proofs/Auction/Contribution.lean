/-
What an auction puts into its response, adapter by adapter. Each adapter that may bid contributes the
units of its own bids above the floor, whatever the other ones say; beside them stand the units with a
fixed price. The time that a bidder has left when it is asked is that of the auction but for the lookups
before the round.
-/
import Mediation.Proofs.Auction.Outcome
import Mediation.Proofs.Auction.Ranking
import Mediation.Proofs.Bidding.Profiles

namespace Mediation.Auction

/-! ## Units of answers -/

section

variable {units : AdUnits} {mediator : Option String} {floor : Price}

end

/-! ## Time until the round -/

section

variable {policy : Policy} {s : Services} {x : Subject} {t : Nat} {inventory : Inventory}

end

/-! ## Units of a response -/

section

variable {policy : Policy} {s : Services} {x : Subject} {t : Nat} {inventory : Inventory}
variable {bidders : Bidding.Bidders} {listener : Bidding.Listener}

end

end Mediation.Auction
