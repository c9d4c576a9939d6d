/-
Which configuration an auction key pins. The key is a numeral in base 32, and the configuration is the one whose
uid is the decimal numeral of the same number, if the number fits 128 bits.
-/
import Mediation.Proofs.Auction.Resolution
import Mediation.Proofs.Text

namespace Mediation.Auction

open Text

/-- A key stands for the number that its digits denote in base 32, with a plus sign in front of them or not. -/
def StandsFor (key : String) (n : Nat) : Prop :=
  ∃ run, (key.toList = run ∨ key.toList = '+' :: run) ∧ IsNumeral 32 run n

/-- A text is the numeral of a number in base ten: its digits, without zeros in front of them. -/
def IsDecimal (s : String) (n : Nat) : Prop := Spells 10 s.toList (digitsOf 10 n)

section

variable {key uid : String} {n : Nat}

theorem denotes_iff : Denotes key n ↔ n < 2 ^ 128 ∧ StandsFor key n := by
  unfold Denotes StandsFor
  rw [plusNatural?_eq_some_iff, and_comm]
  exact Iff.rfl

theorem decodeKey_eq_ok_iff : decodeKey key = .ok uid ↔ ∃ n, Denotes key n ∧ IsDecimal uid n := by
  unfold IsDecimal
  simp only [spells_digitsOf_iff]
  constructor
  · intro hok
    by_cases h : ∃ n, Denotes key n
    · obtain ⟨n, hn⟩ := h
      rw [decodeKey_of_denotes hn] at hok
      exact ⟨n, hn, (Except.ok.inj hok).symm⟩
    · rw [decodeKey_of_not_denotes (not_exists.1 h)] at hok
      cases hok
  · rintro ⟨n, hn, rfl⟩
    exact decodeKey_of_denotes hn

theorem decodeKey_eq_error_iff : decodeKey key = .error .invalidAuctionKey ↔ ∀ n, ¬ Denotes key n := by
  constructor
  · intro herror n hn
    rw [decodeKey_of_denotes hn] at herror
    cases herror
  · exact decodeKey_of_not_denotes

/-- Different numbers have different numerals. -/
theorem IsDecimal.unique {m : Nat} (hn : IsDecimal uid n) (hm : IsDecimal uid m) : n = m :=
  (numeral_of_spells 0 hn).unique (numeral_of_spells 0 hm)

theorem exists_isDecimal (n : Nat) : ∃ uid, IsDecimal uid n := ⟨toString n, spells_digitsOf_iff.2 rfl⟩

end

/-- A key is decoded exactly if it stands for a number that fits 128 bits, into the decimal numeral of the number;
any other key is invalid. So a number is decoded from its digits in base 32, whether the letters among them are
small or capital and however many zeros are in front, and two keys pin one configuration exactly if they stand for
one number. -/
theorem decodeKey_numeral :
    (∀ key uid, decodeKey key = .ok uid ↔ ∃ n < 2 ^ 128, StandsFor key n ∧ IsDecimal uid n) ∧
    (∀ key, decodeKey key = .error .invalidAuctionKey ↔ ∀ n < 2 ^ 128, ¬ StandsFor key n) ∧
    (∀ n < 2 ^ 128, ∀ key run zeros, key.toList = run ∨ key.toList = '+' :: run →
      Spells 32 run (List.replicate zeros 0 ++ digitsOf 32 n) → ∃ uid, decodeKey key = .ok uid ∧ IsDecimal uid n) ∧
    ∀ key key', (∃ uid, decodeKey key = .ok uid ∧ decodeKey key' = .ok uid) ↔
      ∃ n < 2 ^ 128, StandsFor key n ∧ StandsFor key' n := by
  refine ⟨fun key uid => ?_, fun key => ?_, fun n hn key run zeros hkey hrun => ?_, fun key key' => ?_⟩
  · simp only [decodeKey_eq_ok_iff, denotes_iff, and_assoc]
  · simp only [decodeKey_eq_error_iff, denotes_iff, not_and]
  · obtain ⟨uid, huid⟩ := exists_isDecimal n
    have hdenotes : Denotes key n := denotes_iff.2 ⟨hn, run, hkey, numeral_of_spells zeros hrun⟩
    exact ⟨uid, decodeKey_eq_ok_iff.2 ⟨n, hdenotes, huid⟩, huid⟩
  · simp only [decodeKey_eq_ok_iff]
    constructor
    · rintro ⟨uid, ⟨n, hn, huid⟩, ⟨m, hm, huid'⟩⟩
      obtain rfl := huid.unique huid'
      exact ⟨n, (denotes_iff.1 hn).1, (denotes_iff.1 hn).2, (denotes_iff.1 hm).2⟩
    · rintro ⟨n, hbound, hn, hm⟩
      obtain ⟨uid, huid⟩ := exists_isDecimal n
      exact ⟨uid, ⟨n, denotes_iff.2 ⟨hbound, hn⟩, huid⟩, ⟨n, denotes_iff.2 ⟨hbound, hm⟩, huid⟩⟩

/-- The highest number that fits, with zeros in front and letters of both cases. -/
theorem decodeKey_numeral_highest :
    (∃ uid, decodeKey "+007vvvvvvvvvvvvvVVVVVVVVVVVV" = .ok uid ∧ IsDecimal uid (2 ^ 128 - 1)) ∧
    (∀ n < 2 ^ 128, ¬ StandsFor "80000000000000000000000000" n) ∧
    ∃ n < 2 ^ 128, StandsFor "v" n ∧ StandsFor "+0V" n := by
  obtain ⟨-, hinvalid, hdigits, hsame⟩ := decodeKey_numeral
  refine ⟨?_, (hinvalid _).1 (by decide +kernel), (hsame _ _).1 ⟨"31", by decide, by decide⟩⟩
  exact hdigits (2 ^ 128 - 1) (by decide) "+007vvvvvvvvvvvvvVVVVVVVVVVVV" _ 2 (.inr rfl)
    (spells_iff.2 (by decide +kernel))

end Mediation.Auction
