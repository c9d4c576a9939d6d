/-
What white space is dropped around a text, and which numbers runs of digits denote. A number that is written out in
digits is read back from them, with its sign and up to the ends of the range.
-/
import Mathlib.Data.List.TakeWhile
import Mathlib.Data.Nat.Digits.Lemmas
import Mediation.Proofs.Lists
import Mediation.Text.Blank
import Mediation.Text.Digits

namespace Mediation.Text

/-! ## White space -/

/-- Nothing but white space is dropped, in front and at the end. -/
theorem exists_trim (cs : List Char) : ∃ before after, cs = before ++ (trim cs ++ after) ∧
    (∀ c ∈ before, isBlank c) ∧ ∀ c ∈ after, isBlank c := by
  have hblank : ∀ l : List Char, ∀ c ∈ l.takeWhile isBlank, isBlank c := fun _ _ hc => List.mem_takeWhile_imp hc
  refine ⟨cs.takeWhile isBlank, ((cs.dropWhile isBlank).reverse.takeWhile isBlank).reverse, ?_, hblank _, ?_⟩
  · unfold trim
    rw [← List.reverse_append, List.takeWhile_append_dropWhile, List.reverse_reverse,
      List.takeWhile_append_dropWhile]
  · exact fun c hc => hblank _ c (List.mem_reverse.1 hc)

/-- All white space around a text without any in it is dropped. -/
theorem trim_append {before cs after : List Char} (hbefore : ∀ c ∈ before, isBlank c)
    (hafter : ∀ c ∈ after, isBlank c) (hcs : ∀ c ∈ cs, ¬ isBlank c) : trim (before ++ (cs ++ after)) = cs := by
  have hkept : ∀ l : List Char, (∀ c ∈ l, ¬ isBlank c) → l.dropWhile isBlank = l := fun l hl =>
    List.dropWhile_eq_self_iff.2 fun hpos => hl _ (List.getElem_mem hpos)
  unfold trim
  rw [List.dropWhile_append_of_pos hbefore]
  cases cs with
  | nil => simp [List.dropWhile_eq_nil_iff.2 hafter]
  | cons c cs =>
    rw [List.cons_append, List.dropWhile_cons_of_neg (hcs c List.mem_cons_self), ← List.cons_append,
      List.reverse_append, List.dropWhile_append_of_pos fun c hc => hafter c (List.mem_reverse.1 hc),
      hkept _ fun c hc => hcs c (List.mem_reverse.1 hc), List.reverse_reverse]

/-! ## Digits -/

/-- The digits in the order of their values, with small letters. -/
def figures : List Char := "0123456789abcdefghijklmnopqrstuvwxyz".toList

/-- The digits in the order of their values, with capital letters. -/
def capitals : List Char := "0123456789ABCDEFGHIJKLMNOPQRSTUVWXYZ".toList

/-- A character is the digit of a value below the base. A letter may be small or capital. -/
def Digit (base : Nat) (c : Char) (d : Nat) : Prop :=
  d < base ∧ (figures[d]? = some c ∨ capitals[d]? = some c)

section

variable {base d : Nat} {c : Char}

theorem getElem?_eq_some_iff_of_codes (letter : Nat) {table : List Char} (hlength : table.length = 36)
    (h : ∀ d < 36, table[d]?.map Char.toNat = some (if d < 10 then 0x30 + d else letter + (d - 10))) :
    table[d]? = some c ↔ d < 36 ∧ c.toNat = if d < 10 then 0x30 + d else letter + (d - 10) := by
  constructor
  · intro hc
    have hd : d < 36 := hlength ▸ (List.getElem?_eq_some_iff.1 hc).1
    have hcode := h d hd
    rw [hc, Option.map_some, Option.some.injEq] at hcode
    exact ⟨hd, hcode⟩
  · rintro ⟨hd, hcode⟩
    obtain ⟨c', hc', heq⟩ := Option.map_eq_some_iff.1 (h d hd)
    rw [← hcode, Char.toNat_inj] at heq
    rw [hc', heq]

theorem digit?_eq_some_iff : digit? base c = some d ↔ Digit base c d := by
  unfold Digit
  rw [getElem?_eq_some_iff_of_codes 0x61 rfl (by decide),
    getElem?_eq_some_iff_of_codes 0x41 rfl (by decide)]
  unfold digit?
  dsimp only
  rw [Option.filter_eq_some_iff, decide_eq_true_eq]
  split_ifs <;> simp <;> omega

end

/-! ## Numerals -/

/-- A run of digits spells their values. -/
def Spells (base : Nat) (cs : List Char) (ds : List Nat) : Prop := List.Forall₂ (Digit base) cs ds

/-- A run of one digit or more denotes a number. There may be zeros in front. -/
def IsNumeral (base : Nat) (cs : List Char) (n : Nat) : Prop :=
  cs ≠ [] ∧ ∃ ds, Spells base cs ds ∧ Nat.ofDigits base ds.reverse = n

/-- The digits of a number, the most significant one first and without zeros in front of it. -/
def digitsOf (base n : Nat) : List Nat := if n = 0 then [0] else (Nat.digits base n).reverse

section

variable {base n : Nat} {cs : List Char} {ds : List Nat}

theorem digitsValue_eq : digitsValue base ds = Nat.ofDigits base ds.reverse := by
  rw [Nat.ofDigits_eq_foldr, List.foldr_reverse]
  unfold digitsValue
  congr 1
  funext m d
  exact Nat.add_comm _ _

theorem spells_iff : Spells base cs ds ↔ cs.mapM (digit? base) = some ds := by
  unfold Spells
  simp only [mapM_eq_some_iff, digit?_eq_some_iff]

theorem natural?_eq_some_iff : natural? base cs = some n ↔ IsNumeral base cs n := by
  unfold natural? IsNumeral
  by_cases hcs : cs = []
  · simp [hcs]
  · rw [if_neg (by simpa using hcs), Option.map_eq_some_iff]
    simp only [spells_iff, digitsValue_eq, hcs, ne_eq, not_false_eq_true, true_and]

theorem not_isNumeral_plus : ¬ IsNumeral base ('+' :: cs) n := by
  rintro ⟨-, ds, hds, -⟩
  obtain ⟨d, ds', hd, -, -⟩ := List.forall₂_cons_left_iff.1 hds
  have hplus := digit?_eq_some_iff.2 hd
  simp [digit?] at hplus

theorem plusNatural?_eq_some_iff :
    plusNatural? base cs = some n ↔ ∃ run, (cs = run ∨ cs = '+' :: run) ∧ IsNumeral base run n := by
  unfold plusNatural?
  split
  · rename_i cs
    rw [natural?_eq_some_iff]
    constructor
    · exact fun h => ⟨cs, .inr rfl, h⟩
    · rintro ⟨run, rfl | heq, h⟩
      · exact (not_isNumeral_plus h).elim
      · obtain ⟨-, rfl⟩ := List.cons.inj heq
        exact h
  · rename_i hplus
    rw [natural?_eq_some_iff]
    constructor
    · exact fun h => ⟨cs, .inl rfl, h⟩
    · rintro ⟨run, rfl | heq, h⟩
      · exact h
      · exact (hplus run heq).elim

theorem digitsOf_of_lt (h : n < base) : digitsOf base n = [n] := by
  unfold digitsOf
  split
  · rename_i hn
    rw [hn]
  · rename_i hn
    rw [Nat.digits_of_lt base n hn h, List.reverse_singleton]

theorem digitsOf_of_le (hbase : 1 < base) (h : base ≤ n) :
    digitsOf base n = digitsOf base (n / base) ++ [n % base] := by
  have hn : n ≠ 0 := by omega
  have hdiv : n / base ≠ 0 := (Nat.div_pos h (by omega)).ne'
  unfold digitsOf
  rw [if_neg hn, if_neg hdiv, Nat.digits_eq_cons_digits_div hbase hn, List.reverse_cons]

theorem lt_of_mem_digitsOf {d : Nat} (hbase : 1 < base) (h : d ∈ digitsOf base n) : d < base := by
  unfold digitsOf at h
  split at h
  · rw [List.mem_singleton] at h
    omega
  · exact Nat.digits_lt_base hbase (List.mem_reverse.1 h)

theorem digitsOf_ne_nil (base n : Nat) : digitsOf base n ≠ [] := by
  unfold digitsOf
  split
  · exact List.cons_ne_nil _ _
  · rename_i hn
    simpa [Nat.digits_ne_nil_iff_ne_zero] using hn

theorem ofDigits_digitsOf (base n : Nat) : Nat.ofDigits base (digitsOf base n).reverse = n := by
  unfold digitsOf
  split
  · rename_i hn
    rw [hn]
    rfl
  · rw [List.reverse_reverse, Nat.ofDigits_digits]

theorem toDigits_eq_map (hbase : 1 < base) (n : Nat) :
    Nat.toDigits base n = (digitsOf base n).map Nat.digitChar := by
  induction n using Nat.strongRecOn with
  | ind n ih =>
    by_cases h : n < base
    · rw [Nat.toDigits_of_lt_base h, digitsOf_of_lt h, List.map_singleton]
    · have hle : base ≤ n := Nat.le_of_not_lt h
      rw [Nat.toDigits_of_base_le hbase hle, digitsOf_of_le hbase hle, List.map_append, List.map_singleton,
        ih (n / base) (Nat.div_lt_self (by omega) hbase)]

/-- The digits of a number denote it, also with zeros in front. -/
theorem numeral_of_spells (zeros : Nat) (h : Spells base cs (List.replicate zeros 0 ++ digitsOf base n)) :
    IsNumeral base cs n := by
  refine ⟨?_, _, h, ?_⟩
  · rintro rfl
    have hnil := List.forall₂_nil_left_iff.1 h
    exact digitsOf_ne_nil base n (List.append_eq_nil_iff.1 hnil).2
  · rw [List.reverse_append, List.reverse_replicate, Nat.ofDigits_append_replicate_zero, ofDigits_digitsOf]

theorem IsNumeral.unique {m : Nat} (hn : IsNumeral base cs n) (hm : IsNumeral base cs m) : n = m :=
  Option.some.inj ((natural?_eq_some_iff.2 hn).symm.trans (natural?_eq_some_iff.2 hm))

/-- Digits that are no letters are spelled in one way. -/
theorem Spells.unique {cs' : List Char} (hbase : base ≤ 10) (h : Spells base cs ds) (h' : Spells base cs' ds) :
    cs = cs' := by
  refine List.left_unique_forall₂' (fun c c' d hc hc' => ?_) h h'
  obtain ⟨hd, hc⟩ := hc
  obtain ⟨-, hc'⟩ := hc'
  have hsame : ∀ d < 10, capitals[d]? = figures[d]? := by decide
  rw [hsame d (by omega), or_self] at hc hc'
  exact Option.some.inj (hc.symm.trans hc')

theorem spells_toDigits (n : Nat) : Spells 10 (Nat.toDigits 10 n) (digitsOf 10 n) := by
  have hdigit : ∀ d < 10, digit? 10 d.digitChar = some d := by decide
  rw [toDigits_eq_map (by decide)]
  unfold Spells
  rw [List.forall₂_map_left_iff, List.forall₂_same]
  exact fun d hd => digit?_eq_some_iff.1 (hdigit d (lt_of_mem_digitsOf (by decide) hd))

/-- What spells the digits of a number in base ten is what is written for it. -/
theorem spells_digitsOf_iff {s : String} : Spells 10 s.toList (digitsOf 10 n) ↔ s = toString n := by
  have hwritten : Spells 10 (toString n).toList (digitsOf 10 n) := by
    rw [Nat.toString_eq_repr, Nat.toList_repr]
    exact spells_toDigits n
  constructor
  · exact fun h => String.toList_injective (h.unique (Nat.le_refl 10) hwritten)
  · rintro rfl
    exact hwritten

end

/-! ## Reading what is written -/

theorem natural?_toDigits (n : Nat) : natural? 10 (Nat.toDigits 10 n) = some n :=
  natural?_eq_some_iff.2 (numeral_of_spells 0 (spells_toDigits n))

/-- Without a sign in front the digits are all there is. -/
theorem integer?_of_isDigit {c : Char} {cs : List Char} (h : c.isDigit) :
    integer? (c :: cs) = (natural? 10 (c :: cs)).map fun n => (n : Int) := by
  unfold integer?
  split
  · rename_i heq
    obtain ⟨rfl, -⟩ := List.cons.inj heq
    exact absurd h (by decide)
  · unfold plusNatural?
    split
    · rename_i heq
      obtain ⟨rfl, -⟩ := List.cons.inj heq
      exact absurd h (by decide)
    · rfl

/-- A number is read back from its digits. -/
theorem integer?_toString (n : Int) : integer? (toString n).toList = some n := by
  rw [Int.toString_eq_repr]
  cases n with
  | ofNat m =>
    rw [Int.repr, Nat.toList_repr]
    have hnatural := natural?_toDigits m
    cases hcs : Nat.toDigits 10 m with
    | nil => exact absurd hcs Nat.toDigits_ne_nil
    | cons c cs =>
      have hdigit : c.isDigit :=
        Nat.isDigit_of_mem_toDigits (by decide) (by decide) (hcs ▸ List.mem_cons_self)
      rw [hcs] at hnatural
      rw [integer?_of_isDigit hdigit, hnatural]
      rfl
  | negSucc m =>
    rw [Int.repr, String.toList_append, Nat.toList_repr]
    have hsign : "-".toList = ['-'] := rfl
    rw [hsign, List.singleton_append, integer?, natural?_toDigits]
    rfl

/-- A number that fits is read back from its digits. -/
theorem int64?_toString (n : Int64) : int64? (toString n.toInt) = some n := by
  have hfits : fitsInt64 n.toInt := by
    unfold fitsInt64
    simp only [Bool.and_eq_true, decide_eq_true_eq]
    exact ⟨n.minValue_le_toInt, n.toInt_le⟩
  unfold int64?
  rw [integer?_toString, Option.filter_some, if_pos hfits, Option.map_some, Int64.ofInt_toInt]

/-- Of the numbers without a sign those fit that are below `2^63`. -/
theorem int64?_natural (n : Nat) :
    int64? (toString n) = if n < 2 ^ 63 then some (Int64.ofInt n) else none := by
  have hfits : fitsInt64 n = decide (n < 2 ^ 63) := by
    have hbounds : Int64.minValue.toInt = -2 ^ 63 ∧ Int64.maxValue.toInt = 2 ^ 63 - 1 := by decide
    unfold fitsInt64
    rw [hbounds.1, hbounds.2, Bool.eq_iff_iff, Bool.and_eq_true, decide_eq_true_iff, decide_eq_true_iff,
      decide_eq_true_iff]
    omega
  unfold int64?
  rw [show toString n = toString (n : Int) from rfl, integer?_toString, Option.filter_some, hfits]
  by_cases h : n < 2 ^ 63
  · rw [decide_eq_true h, if_pos rfl, if_pos h, Option.map_some]
  · rw [decide_eq_false h, if_neg Bool.false_ne_true, if_neg h, Option.map_none]

end Mediation.Text
