/-
Topics of events, and the channel that carries records to the transport topics that settings name.
-/
import Mediation.Error

namespace Mediation

/-- Where an event belongs. -/
inductive Topic where
  | adEvents
  | config
  | show
  | click
  | reward
  | win
  | loss
  deriving DecidableEq, Repr

namespace Topic

def all : List Topic := [.adEvents, .config, .show, .click, .reward, .win, .loss]

def wire : Topic → String
  | .adEvents => "ad_events"
  | .config => "config"
  | .show => "show"
  | .click => "click"
  | .reward => "reward"
  | .win => "win"
  | .loss => "loss"

def ofWire? (s : String) : Option Topic := all.find? (·.wire == s)

/-- Place in `all`. -/
def index (t : Topic) : Nat := t.ctorIdx

theorem ofWire?_wire (t : Topic) : ofWire? t.wire = some t := by cases t <;> decide

theorem index_injective {a b : Topic} (h : a.index = b.index) : a = b := by
  have key : ∀ c : Topic, all[c.index]? = some c := by intro c; cases c <;> rfl
  have ha := key a
  rw [h, key b] at ha
  exact (Option.some.inj ha).symm

instance : Ord Topic := ⟨fun a b => compare a.index b.index⟩

instance : Std.TransOrd Topic where
  eq_swap {a b} := Std.OrientedOrd.eq_swap (a := a.index) (b := b.index)
  isLE_trans {a b c} := Std.TransOrd.isLE_trans (a := a.index) (b := b.index) (c := c.index)

instance : Std.LawfulEqOrd Topic where
  eq_of_compare h := index_injective (Std.LawfulEqOrd.compare_eq_iff_eq.1 h)

def toJson (t : Topic) : Json := .str t.wire

def ofJson? (v : Json) : Option Topic := v.constant?.bind ofWire?

end Topic

end Mediation
