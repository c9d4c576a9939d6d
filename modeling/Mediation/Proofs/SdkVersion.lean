/-
Which texts are versions. A version is two numbers or three with dots between them, with a `v` in front of them or
not and a suffix behind them or not, and with white space around all of it. Nothing else is one: a digit of another
script is refused like any other character that does not belong in it.
-/
import Mediation.Proofs.Text
import Mediation.SdkVersion

namespace Mediation.SdkVersion

open Text

/-! ## What is written for a version -/

/-- The characters of a suffix: figures, Latin letters, dots, dashes and plus signs. -/
def suffixChars : List Char := "0123456789ABCDEFGHIJKLMNOPQRSTUVWXYZabcdefghijklmnopqrstuvwxyz.-+".toList

/-- Nothing, or a dash or a plus sign and then any number of the characters of a suffix. -/
def Suffix (cs : List Char) : Prop :=
  cs = [] ∨ ∃ sign rest, cs = sign :: rest ∧ (sign = '-' ∨ sign = '+') ∧ ∀ x ∈ rest, x ∈ suffixChars

/-- The third number with a dot in front of it, or nothing at all for zero. -/
def Patch (cs : List Char) (n : Nat) : Prop := cs = [] ∧ n = 0 ∨ ∃ run, cs = '.' :: run ∧ IsNumeral 10 run n

/-- A `v` or nothing, two numbers or three with dots between them, and a suffix. -/
def Writes (cs : List Char) (a b c : Nat) : Prop :=
  ∃ lead major minor patch suffix, cs = lead ++ (major ++ '.' :: (minor ++ (patch ++ suffix))) ∧
    (lead = [] ∨ lead = ['v']) ∧ IsNumeral 10 major a ∧ IsNumeral 10 minor b ∧ Patch patch c ∧ Suffix suffix

/-- A text states the numbers of a version, with white space around them or not. -/
def States (s : String) (a b c : Nat) : Prop :=
  ∃ before cs after, s.toList = before ++ (cs ++ after) ∧ (∀ x ∈ before, isBlank x) ∧ (∀ x ∈ after, isBlank x) ∧
    Writes cs a b c

/-- A version comes before another one if it has the lower number where they first differ. -/
def Precedes (v w : SdkVersion) : Prop :=
  v.major.toNat < w.major.toNat ∨ v.major.toNat = w.major.toNat ∧ (v.minor.toNat < w.minor.toNat ∨
    v.minor.toNat = w.minor.toNat ∧ v.patch.toNat < w.patch.toNat)

/-! ## Parts -/

section

variable {cs ds rest : List Char} {a b c : Nat}

theorem toNat_lt_of_isSuffixChar {x : Char} (h : isSuffixChar x) : x.toNat < 0x80 := by
  unfold isSuffixChar Char.isAlphanum Char.isAlpha Char.isUpper Char.isLower Char.isDigit at h
  simp only [Bool.or_eq_true, Bool.and_eq_true, decide_eq_true_eq, UInt32.le_iff_toNat_le] at h
  rcases h with (((((⟨-, h⟩ | ⟨-, h⟩) | ⟨-, h⟩) | rfl) | rfl) | rfl)
  · exact Nat.lt_of_le_of_lt h (by decide)
  · exact Nat.lt_of_le_of_lt h (by decide)
  · exact Nat.lt_of_le_of_lt h (by decide)
  all_goals decide

theorem mem_suffixChars_iff {x : Char} : x ∈ suffixChars ↔ isSuffixChar x := by
  constructor
  · have hall : suffixChars.all isSuffixChar := by decide
    exact List.all_eq_true.1 hall x
  · intro h
    have hascii : ∀ n < 0x80, isSuffixChar (Char.ofNat n) → Char.ofNat n ∈ suffixChars := by decide +kernel
    have hx := hascii x.toNat (toNat_lt_of_isSuffixChar h)
    rw [Char.ofNat_toNat] at hx
    exact hx h

theorem not_isBlank_of_mem_suffixChars {x : Char} (hx : x ∈ suffixChars) : ¬ isBlank x := by
  have hall : suffixChars.all (!isBlank ·) := by decide
  simpa using List.all_eq_true.1 hall x hx

theorem isSuffix_iff : isSuffix cs ↔ Suffix cs := by
  unfold Suffix
  cases cs with
  | nil => simp [isSuffix]
  | cons sign rest => simp [isSuffix, mem_suffixChars_iff]

theorem number?_eq_some_iff {n : UInt64} : number? ds = some n ↔ IsNumeral 10 ds n.toNat := by
  unfold number?
  rw [Option.bind_eq_some_iff]
  constructor
  · rintro ⟨m, hm, hn⟩
    split at hn
    · rename_i hfits
      obtain rfl := Option.some.inj hn
      rwa [Nat.toUInt64, UInt64.toNat_ofNat_of_lt' hfits, ← natural?_eq_some_iff]
    · cases hn
  · intro h
    refine ⟨n.toNat, natural?_eq_some_iff.2 h, ?_⟩
    rw [if_pos n.toNat_lt]
    simp

theorem isDigit_of_digit {x : Char} {d : Nat} (h : Digit 10 x d) : x.isDigit := by
  have hfigures : ∀ d < 10, capitals[d]? = figures[d]? ∧ (figures[d]?).all Char.isDigit := by decide
  obtain ⟨hd, hx⟩ := h
  obtain ⟨hsame, hall⟩ := hfigures d hd
  rw [hsame, or_self] at hx
  rw [hx] at hall
  exact hall

theorem isDigit_of_isNumeral (h : IsNumeral 10 ds a) : ∀ x ∈ ds, x.isDigit := by
  obtain ⟨-, values, hspells, -⟩ := h
  induction hspells with
  | nil => exact List.forall_mem_nil _
  | cons hx _ ih => exact List.forall_mem_cons.2 ⟨isDigit_of_digit hx, ih⟩

theorem splitDigits_append (hds : ∀ x ∈ ds, x.isDigit) (hrest : ∀ x ∈ rest.head?, ¬ x.isDigit) :
    splitDigits (ds ++ rest) = (ds, rest) := by
  have hstop : rest.takeWhile Char.isDigit = [] ∧ rest.dropWhile Char.isDigit = rest := by
    cases rest with
    | nil => exact ⟨rfl, rfl⟩
    | cons x rest => simp [hrest x rfl]
  unfold splitDigits
  rw [List.takeWhile_append_of_pos hds, List.dropWhile_append_of_pos hds, hstop.1, hstop.2, List.append_nil]

theorem append_of_splitDigits (h : splitDigits cs = (ds, rest)) : cs = ds ++ rest := by
  unfold splitDigits at h
  obtain ⟨rfl, rfl⟩ := Prod.mk.inj h
  exact (List.takeWhile_append_dropWhile).symm

theorem Suffix.not_isDigit_head (h : Suffix cs) : ∀ x ∈ cs.head?, ¬ x.isDigit := by
  rcases h with rfl | ⟨sign, rest, rfl, hsign, -⟩
  · nofun
  · rintro x ⟨⟩
    rcases hsign with rfl | rfl <;> decide

/-- After the two numbers, the third one and the suffix are read exactly if they are there. -/
theorem readPatch?_eq_some_iff {n : UInt64} : readPatch? cs = some n ↔
    ∃ patch suffix, cs = patch ++ suffix ∧ Patch patch n.toNat ∧ Suffix suffix := by
  constructor
  · intro h
    unfold readPatch? at h
    split at h
    · rename_i cs
      split at h
      rename_i ds rest hsplit
      split at h
      · rename_i hsuffix
        refine ⟨'.' :: ds, rest, ?_, .inr ⟨ds, rfl, number?_eq_some_iff.1 h⟩, isSuffix_iff.1 hsuffix⟩
        rw [append_of_splitDigits hsplit, List.cons_append]
      · cases h
    · split at h
      · rename_i hsuffix
        obtain rfl := Option.some.inj h
        exact ⟨[], cs, rfl, .inl ⟨rfl, rfl⟩, isSuffix_iff.1 hsuffix⟩
      · cases h
  · rintro ⟨patch, suffix, rfl, ⟨rfl, hn⟩ | ⟨run, rfl, hrun⟩, hsuffix⟩
    · obtain rfl : n = 0 := UInt64.toNat_inj.1 hn
      rw [List.nil_append]
      unfold readPatch?
      split
      · -- a suffix does not start with a dot
        rcases hsuffix with hnil | ⟨sign, rest, hcons, hsign, -⟩
        · cases hnil
        · cases hcons
          rcases hsign with hdot | hdot <;> cases hdot
      · rw [if_pos (isSuffix_iff.2 hsuffix)]
    · rw [List.cons_append, readPatch?]
      dsimp only
      rw [splitDigits_append (isDigit_of_isNumeral hrun) hsuffix.not_isDigit_head]
      dsimp only
      rw [if_pos (isSuffix_iff.2 hsuffix), number?_eq_some_iff.2 hrun]

/-- What follows a `v` at the start, or the whole text without one. -/
def afterLead : List Char → List Char
  | 'v' :: cs => cs
  | cs => cs

theorem exists_lead (cs : List Char) : ∃ lead, cs = lead ++ afterLead cs ∧ (lead = [] ∨ lead = ['v']) := by
  unfold afterLead
  split
  · exact ⟨['v'], rfl, .inr rfl⟩
  · exact ⟨[], rfl, .inl rfl⟩

theorem afterLead_append {lead : List Char} (hlead : lead = [] ∨ lead = ['v']) (hds : IsNumeral 10 ds a)
    (rest : List Char) : afterLead (lead ++ (ds ++ rest)) = ds ++ rest := by
  rcases hlead with rfl | rfl
  · cases ds with
    | nil => exact absurd rfl hds.1
    | cons x ds =>
      have hx := isDigit_of_isNumeral hds x List.mem_cons_self
      rw [List.nil_append, List.cons_append]
      unfold afterLead
      split
      · rename_i heq
        cases heq
        exact absurd hx (by decide)
      · rfl
  · rfl

theorem readTrimmed?_eq (cs : List Char) : readTrimmed? cs =
    (let (major, rest) := splitDigits (afterLead cs)
    match rest with
    | '.' :: rest =>
      let (minor, rest) := splitDigits rest
      match number? major, number? minor, readPatch? rest with
      | some major, some minor, some patch => some ⟨major, minor, patch⟩
      | _, _, _ => none
    | _ => none) := rfl

/-- A text without white space around it is read exactly if a version is written there. -/
theorem readTrimmed?_eq_some_iff {v : SdkVersion} :
    readTrimmed? cs = some v ↔ Writes cs v.major.toNat v.minor.toNat v.patch.toNat := by
  rw [readTrimmed?_eq]
  constructor
  · intro h
    obtain ⟨lead, hcs, hlead⟩ := exists_lead cs
    split at h
    rename_i major rest hmajor
    split at h
    · rename_i rest
      split at h
      rename_i minor rest hminor
      split at h
      · rename_i a b c ha hb hc
        obtain rfl := Option.some.inj h
        obtain ⟨patch, suffix, rfl, hpatch, hsuffix⟩ := readPatch?_eq_some_iff.1 hc
        refine ⟨lead, major, minor, patch, suffix, ?_, hlead, number?_eq_some_iff.1 ha, number?_eq_some_iff.1 hb,
          hpatch, hsuffix⟩
        rw [hcs, append_of_splitDigits hmajor, append_of_splitDigits hminor]
      · cases h
    · cases h
  · rintro ⟨lead, major, minor, patch, suffix, rfl, hlead, hmajor, hminor, hpatch, hsuffix⟩
    have hend : ∀ x ∈ (patch ++ suffix).head?, ¬ x.isDigit := by
      rcases hpatch with ⟨rfl, -⟩ | ⟨run, rfl, -⟩
      · exact hsuffix.not_isDigit_head
      · rintro x ⟨⟩
        decide
    have hsplit : splitDigits (major ++ '.' :: (minor ++ (patch ++ suffix))) = (major, _) :=
      splitDigits_append (isDigit_of_isNumeral hmajor) (by rintro x ⟨⟩; decide)
    simp only [afterLead_append hlead hmajor, hsplit, splitDigits_append (isDigit_of_isNumeral hminor) hend,
      number?_eq_some_iff.2 hmajor, number?_eq_some_iff.2 hminor,
      readPatch?_eq_some_iff.2 ⟨patch, suffix, rfl, hpatch, hsuffix⟩]

theorem mem_suffixChars_of_isNumeral (h : IsNumeral 10 ds a) {x : Char} (hx : x ∈ ds) : x ∈ suffixChars := by
  rw [mem_suffixChars_iff]
  unfold isSuffixChar Char.isAlphanum
  rw [isDigit_of_isNumeral h x hx]
  simp

/-- Where a version is written there are no other characters than those that a suffix may have. -/
theorem Writes.mem_suffixChars (h : Writes cs a b c) : ∀ x ∈ cs, x ∈ suffixChars := by
  obtain ⟨lead, major, minor, patch, suffix, rfl, hlead, hmajor, hminor, hpatch, hsuffix⟩ := h
  simp only [List.forall_mem_append, List.forall_mem_cons]
  refine ⟨?_, fun _ => mem_suffixChars_of_isNumeral hmajor, by decide,
    fun _ => mem_suffixChars_of_isNumeral hminor, ?_, ?_⟩
  · rcases hlead with rfl | rfl
    · exact List.forall_mem_nil _
    · exact List.forall_mem_singleton.2 (by decide)
  · rcases hpatch with ⟨rfl, -⟩ | ⟨run, rfl, hrun⟩
    · exact List.forall_mem_nil _
    · exact List.forall_mem_cons.2 ⟨by decide, fun _ => mem_suffixChars_of_isNumeral hrun⟩
  · rcases hsuffix with rfl | ⟨sign, rest, rfl, hsign, hrest⟩
    · exact List.forall_mem_nil _
    · refine List.forall_mem_cons.2 ⟨?_, hrest⟩
      rcases hsign with rfl | rfl <;> decide

end

/-! ## Whole texts -/

section

variable {s : String} {a b c : Nat}

theorem parse_eq_ok_iff {v : SdkVersion} :
    parse s = .ok v ↔ States s v.major.toNat v.minor.toNat v.patch.toNat := by
  have hparse : parse s = .ok v ↔ readTrimmed? (trim s.toList) = some v := by
    unfold parse
    cases readTrimmed? (trim s.toList) <;> simp
  rw [hparse, readTrimmed?_eq_some_iff]
  constructor
  · intro h
    obtain ⟨before, after, hs, hbefore, hafter⟩ := exists_trim s.toList
    exact ⟨before, _, after, hs, hbefore, hafter, h⟩
  · rintro ⟨before, cs, after, hs, hbefore, hafter, h⟩
    rw [hs, trim_append hbefore hafter fun x hx => not_isBlank_of_mem_suffixChars (h.mem_suffixChars x hx)]
    exact h

theorem parse_eq_error_iff :
    parse s = .error .invalidSdkVersion ↔ ∀ a < 2 ^ 64, ∀ b < 2 ^ 64, ∀ c < 2 ^ 64, ¬ States s a b c := by
  constructor
  · intro herror a ha b hb c hc h
    have hok : parse s = .ok ⟨.ofNat a, .ofNat b, .ofNat c⟩ := by
      rw [parse_eq_ok_iff]
      dsimp only
      rwa [UInt64.toNat_ofNat_of_lt' ha, UInt64.toNat_ofNat_of_lt' hb, UInt64.toNat_ofNat_of_lt' hc]
    rw [hok] at herror
    cases herror
  · intro h
    cases hread : readTrimmed? (trim s.toList) with
    | none => rw [parse, hread]
    | some v =>
      have hok : parse s = .ok v := by rw [parse, hread]
      exact absurd (parse_eq_ok_iff.1 hok) (h _ v.major.toNat_lt _ v.minor.toNat_lt _ v.patch.toNat_lt)

/-- What is no white space in the text of a version is a character that a suffix may have. -/
theorem States.mem_suffixChars (h : States s a b c) {x : Char} (hx : x ∈ s.toList) (hblank : ¬ isBlank x) :
    x ∈ suffixChars := by
  obtain ⟨before, cs, after, hs, hbefore, hafter, hcs⟩ := h
  rw [hs, List.mem_append, List.mem_append] at hx
  rcases hx with hx | hx | hx
  · exact absurd (hbefore x hx) hblank
  · exact hcs.mem_suffixChars x hx
  · exact absurd (hafter x hx) hblank

theorem isNumeral_toString (n : Nat) : IsNumeral 10 (toString n).toList n :=
  numeral_of_spells 0 (spells_digitsOf_iff.2 rfl)

/-- Three numbers with dots between them are stated by their digits. -/
theorem states_digits {before lead suffix after : String} (hbefore : ∀ x ∈ before.toList, isBlank x)
    (hafter : ∀ x ∈ after.toList, isBlank x) (hlead : lead = "" ∨ lead = "v") (hsuffix : Suffix suffix.toList) :
    States (before ++ lead ++ toString a ++ "." ++ toString b ++ "." ++ toString c ++ suffix ++ after) a b c := by
  have hdot : ".".toList = ['.'] := rfl
  refine ⟨before.toList, _, after.toList, ?_, hbefore, hafter, lead.toList, (toString a).toList,
    (toString b).toList, '.' :: (toString c).toList, suffix.toList, rfl, ?_, isNumeral_toString a,
    isNumeral_toString b, .inr ⟨_, rfl, isNumeral_toString c⟩, hsuffix⟩
  · simp only [String.toList_append, hdot, List.append_assoc, List.cons_append, List.nil_append]
  · rcases hlead with rfl | rfl
    · exact .inl rfl
    · exact .inr rfl

end

/-! ## Order -/

section

variable {v w : SdkVersion}

theorem compare_eq_lt_iff : compare v w = .lt ↔ Precedes v w := by
  unfold SdkVersion.compare Precedes
  rw [Ordering.then_eq_lt, Ordering.then_eq_lt]
  simp only [Std.compare_eq_lt, Std.compare_eq_iff_eq, UInt64.lt_iff_toNat_lt, UInt64.toNat_inj]

theorem compare_eq_eq_iff : compare v w = .eq ↔ v = w := by
  unfold SdkVersion.compare
  rw [Ordering.then_eq_eq, Ordering.then_eq_eq, SdkVersion.mk.injEq]
  simp only [Std.compare_eq_iff_eq]

theorem compare_eq_gt_iff : compare v w = .gt ↔ Precedes w v := by
  unfold SdkVersion.compare Precedes
  rw [Ordering.then_eq_gt, Ordering.then_eq_gt]
  simp only [Std.compare_eq_gt, Std.compare_eq_iff_eq, UInt64.lt_iff_toNat_lt, UInt64.toNat_inj,
    @eq_comm _ w.major v.major, @eq_comm _ w.minor v.minor]

end

/-- A text is read as a version exactly if it states numbers of 64 bits, and then as these; otherwise it is no
version. What is outside of ASCII and no white space, a digit of another script for instance, makes it none. So any
three numbers of 64 bits are read from their digits, with a `v`, a suffix and white space around them or not, and
versions are ordered by their numbers, the first one that differs deciding. -/
theorem parse_numbers :
    (∀ s v, parse s = .ok v ↔ States s v.major.toNat v.minor.toNat v.patch.toNat) ∧
    (∀ s, parse s = .error .invalidSdkVersion ↔ ∀ a < 2 ^ 64, ∀ b < 2 ^ 64, ∀ c < 2 ^ 64, ¬ States s a b c) ∧
    (∀ s, ∀ x ∈ s.toList, 0x7F < x.toNat → ¬ isBlank x → parse s = .error .invalidSdkVersion) ∧
    (∀ (v : SdkVersion) (before lead suffix after : String), (∀ x ∈ before.toList, isBlank x) →
      (∀ x ∈ after.toList, isBlank x) → lead = "" ∨ lead = "v" → Suffix suffix.toList →
        parse (before ++ lead ++ toString v.major.toNat ++ "." ++ toString v.minor.toNat ++ "." ++
          toString v.patch.toNat ++ suffix ++ after) = .ok v) ∧
    ∀ v w, (compare v w = .lt ↔ Precedes v w) ∧ (compare v w = .eq ↔ v = w) ∧
      (compare v w = .gt ↔ Precedes w v) := by
  refine ⟨fun _ _ => parse_eq_ok_iff, fun _ => parse_eq_error_iff, fun s x hx hcode hblank => ?_, ?_,
    fun _ _ => ⟨compare_eq_lt_iff, compare_eq_eq_iff, compare_eq_gt_iff⟩⟩
  · rw [parse_eq_error_iff]
    intro a _ b _ c _ h
    have hlt := toNat_lt_of_isSuffixChar (mem_suffixChars_iff.1 (h.mem_suffixChars hx hblank))
    exact Nat.not_lt.2 (Nat.le_of_lt_succ hlt) hcode
  · intro v before lead suffix after hbefore hafter hlead hsuffix
    exact parse_eq_ok_iff.2 (states_digits hbefore hafter hlead hsuffix)

/-- The highest numbers between white space of two kinds, a number beyond them, and a digit of another script. -/
theorem parse_numbers_highest :
    parse "\u00a0v18446744073709551615.0.18446744073709551615-x.y+\u3000\n" = .ok ⟨-1, 0, -1⟩ ∧
    (∀ a < 2 ^ 64, ∀ b < 2 ^ 64, ∀ c < 2 ^ 64, ¬ States "18446744073709551616.0" a b c) ∧
    States "007.08+" 7 8 0 ∧ parse "1.\u0663.0" = .error .invalidSdkVersion ∧
    Precedes ⟨0, 5, 0⟩ ⟨0, 10, 0⟩ := by
  obtain ⟨hread, hrefused, hforeign, hdigits, horder⟩ := parse_numbers
  refine ⟨?_, (hrefused _).1 (by decide +kernel), (hread _ ⟨7, 8, 0⟩).1 (by decide +kernel),
    hforeign _ '\u0663' (by decide) (by decide) (by decide), (horder _ _).1.1 (by decide)⟩
  have hspaced := hdigits ⟨-1, 0, -1⟩ "\u00a0" "v" "-x.y+" "\u3000\n" (List.all_eq_true.1 (by decide))
    (List.all_eq_true.1 (by decide)) (.inr rfl) (isSuffix_iff.1 (by decide))
  rw [← hspaced]
  congr 1

end Mediation.SdkVersion
