import Mathlib
import ThermalLabel.Number.Written
import ThermalLabel.Text.Numeral
import ThermalLabel.Proofs.Number.Shortest
/-!
# What a numeral writes

A numeral is read as the decimal it writes before that is rounded to a binary number. Every layout
of a decimal, positional or with an exponent, writes a decimal of the same value.
-/

namespace ThermalLabel

variable {cs whole fraction tail : List Char} {d : Decimal} {n : Nat} {e : Int} {negative : Bool}

/-- The value of a decimal. -/
def Decimal.value (d : Decimal) : ℚ := if d.negative then -d.magnitude else d.magnitude

/-! ## Reading -/

/-- The digits behind a point, if there is one, and what follows them. -/
def fractionDigits : List Char → List Char × List Char
  | '.' :: cs => (cs.takeWhile Char.isDigit, cs.dropWhile Char.isDigit)
  | cs => ([], cs)

/-- The decimal that digits with a point and an exponent write. -/
def unsignedNumeral? (negative : Bool) (cs : List Char) : Option Decimal :=
  let whole := cs.takeWhile Char.isDigit
  let (fraction, rest) := fractionDigits (cs.dropWhile Char.isDigit)
  if whole = [] ∧ fraction = [] then none
  else (exponentPart? rest).map fun e =>
    ⟨negative, digitsValue (whole ++ fraction), e - fraction.length⟩

/-- The decimal that a numeral writes. -/
def numeral? (s : String) : Option Decimal :=
  let (negative, body) := splitSign s.toList
  unsignedNumeral? negative body

/-- A numeral is read as the binary number nearest to the decimal it writes. -/
theorem unsignedDecimal?_eq (negative : Bool) (cs : List Char) :
    unsignedDecimal? negative cs =
      (unsignedNumeral? negative cs).map fun d => scientific d.negative d.digits d.exponent := by
  have hread : unsignedDecimal? negative cs =
      if cs.takeWhile Char.isDigit = [] ∧ (fractionDigits (cs.dropWhile Char.isDigit)).1 = []
      then none
      else (exponentPart? (fractionDigits (cs.dropWhile Char.isDigit)).2).map fun e =>
        scientific negative (digitsValue (cs.takeWhile Char.isDigit ++
          (fractionDigits (cs.dropWhile Char.isDigit)).1))
          (e - (fractionDigits (cs.dropWhile Char.isDigit)).1.length) := rfl
  rw [hread, unsignedNumeral?]
  simp only [apply_ite (Option.map _), Option.map_none, Option.map_map]
  rfl

/-! ## Digits -/

theorem digitsValue_eq (cs : List Char) : digitsValue cs = Nat.ofDigitChars 10 cs 0 := rfl

theorem digitsValue_toString (n : Nat) : digitsValue (toString n).toList = n := by
  rw [digitsValue_eq, Nat.toString_eq_ofList_toDigits, String.toList_ofList,
    Nat.ofDigitChars_ten_toDigits]

theorem isDigit_of_mem_toString {c : Char} (h : c ∈ (toString n).toList) : c.isDigit = true := by
  rw [Nat.toString_eq_ofList_toDigits, String.toList_ofList] at h
  exact Nat.isDigit_of_mem_toDigits (by decide) le_rfl h

theorem toString_ne_nil (n : Nat) : (toString n).toList ≠ [] := by
  rw [Nat.toString_eq_ofList_toDigits, String.toList_ofList]
  exact Nat.toDigits_ne_nil

theorem digitsValue_append_zeros (cs : List Char) (k : Nat) :
    digitsValue (cs ++ List.replicate k '0') = digitsValue cs * 10 ^ k := by
  rw [digitsValue_eq, digitsValue_eq, Nat.ofDigitChars_append, Nat.ofDigitChars_replicate_zero,
    mul_comm]

theorem digitsValue_zeros_append (k : Nat) (cs : List Char) :
    digitsValue (List.replicate k '0' ++ cs) = digitsValue cs := by
  rw [digitsValue_eq, digitsValue_eq, Nat.ofDigitChars_append, Nat.ofDigitChars_replicate_zero,
    mul_zero]

/-! ## The parts of a numeral -/

/-- What may follow the digits of a numeral: no digit and no point. -/
def EndsDigits (cs : List Char) : Prop := ∀ c ∈ cs.head?, c.isDigit = false ∧ c ≠ '.'

theorem fractionDigits_of_endsDigits (h : EndsDigits tail) : fractionDigits tail = ([], tail) := by
  unfold fractionDigits
  split
  · exact absurd rfl (h '.' rfl).2
  · rfl

theorem takeWhile_digits (hdigits : ∀ c ∈ whole, c.isDigit = true) (tail : List Char)
    (htail : ∀ c ∈ tail.head?, c.isDigit = false) :
    (whole ++ tail).takeWhile Char.isDigit = whole ∧
      (whole ++ tail).dropWhile Char.isDigit = tail := by
  rw [List.takeWhile_append_of_pos hdigits, List.dropWhile_append_of_pos hdigits]
  cases tail with
  | nil => simp
  | cons c cs =>
    have hc := htail c rfl
    simp [hc]

/-- An unsigned numeral writes a magnitude. -/
def WritesMagnitude (cs : List Char) (v : ℚ) : Prop := ∀ negative, ∃ digits exponent,
  unsignedNumeral? negative cs = some ⟨negative, digits, exponent⟩ ∧
    (digits : ℚ) * 10 ^ exponent = v

theorem writesMagnitude_whole (hdigits : ∀ c ∈ whole, c.isDigit = true) (hne : whole ≠ [])
    (htail : EndsDigits tail) (he : exponentPart? tail = some e) :
    WritesMagnitude (whole ++ tail) (digitsValue whole * 10 ^ e) := by
  obtain ⟨htake, hdrop⟩ := takeWhile_digits hdigits tail fun c hc => (htail c hc).1
  refine fun negative => ⟨digitsValue whole, e, ?_, rfl⟩
  unfold unsignedNumeral?
  simp only [htake, hdrop, fractionDigits_of_endsDigits htail, hne, false_and, if_false, he,
    List.append_nil, List.length_nil, Nat.cast_zero, sub_zero, Option.map_some]

/-- The digits on either side of the point are written as one number. -/
theorem writesMagnitude_point (hwhole : ∀ c ∈ whole, c.isDigit = true) (hne : whole ≠ [])
    (hfraction : ∀ c ∈ fraction, c.isDigit = true) (htail : EndsDigits tail)
    (he : exponentPart? tail = some e) :
    WritesMagnitude (whole ++ '.' :: (fraction ++ tail))
      (digitsValue (whole ++ fraction) * 10 ^ (e - fraction.length)) := by
  obtain ⟨htake, hdrop⟩ := takeWhile_digits hwhole ('.' :: (fraction ++ tail)) (by simp)
  obtain ⟨htake', hdrop'⟩ := takeWhile_digits hfraction tail fun c hc => (htail c hc).1
  refine fun negative => ⟨digitsValue (whole ++ fraction), e - fraction.length, ?_, rfl⟩
  unfold unsignedNumeral?
  simp only [htake, hdrop, fractionDigits, htake', hdrop', hne, false_and, if_false, he,
    Option.map_some]

/-- An exponent is written with a sign and digits. -/
theorem exponentText_toList (e : Int) : ∃ ds : List Char, ds ≠ [] ∧
    (∀ c ∈ ds, c.isDigit = true) ∧ digitsValue ds = e.natAbs ∧
      (exponentText e).toList = 'e' :: (if e < 0 then '-' else '+') :: ds := by
  have hvalue := digitsValue_toString e.natAbs
  have hdigits {c : Char} (hc : c ∈ (toString e.natAbs).toList) := isDigit_of_mem_toString hc
  have hne := toString_ne_nil e.natAbs
  have hsign : (if e < 0 then "e-" else "e+" : String).toList =
      ['e', if e < 0 then '-' else '+'] := by
    split <;> rfl
  unfold exponentText
  simp only
  rw [String.toList_append, hsign]
  by_cases hshort : e.natAbs < 10
  · rw [if_pos hshort]
    refine ⟨'0' :: (toString e.natAbs).toList, List.cons_ne_nil _ _, ?_, ?_, ?_⟩
    · rintro c (_ | ⟨_, hc⟩)
      · rfl
      · exact hdigits hc
    · exact (digitsValue_zeros_append 1 _).trans hvalue
    · rw [String.toList_append]
      rfl
  · rw [if_neg hshort]
    exact ⟨_, hne, fun c hc => hdigits hc, hvalue, rfl⟩

theorem exponentPart?_exponentText (e : Int) : exponentPart? (exponentText e).toList = some e := by
  obtain ⟨ds, hne, hdigits, hvalue, hlist⟩ := exponentText_toList e
  have hall : ds ≠ [] ∧ ds.all Char.isDigit = true := ⟨hne, List.all_eq_true.2 hdigits⟩
  rw [hlist]
  by_cases he : e < 0
  · rw [if_pos he]
    simp only [exponentPart?, splitSign, true_or, if_true, if_pos hall, hvalue]
    congr 1
    omega
  · rw [if_neg he]
    simp only [exponentPart?, splitSign, true_or, if_true, if_pos hall, hvalue,
      Bool.false_eq_true, if_false]
    congr 1
    omega

/-! ## Layouts -/

theorem shiftZeros_eq (n : Nat) (e : Int) :
    ((shiftZeros n e).1 : ℚ) * 10 ^ (shiftZeros n e).2 = n * 10 ^ e := by
  fun_induction shiftZeros n e with
  | case1 n e h ih =>
    rw [ih, zpow_add_one₀ (by norm_num), mul_comm ((10 : ℚ) ^ e), ← mul_assoc]
    congr 1
    exact_mod_cast Nat.div_mul_cancel (Nat.dvd_of_mod_eq_zero h.2)
  | case2 n e h => rfl

theorem Decimal.trimmed_magnitude (d : Decimal) : d.trimmed.magnitude = d.magnitude :=
  shiftZeros_eq d.digits d.exponent

theorem endsDigits_nil : EndsDigits [] := nofun

theorem exponentPart?_nil : exponentPart? [] = some 0 := rfl

theorem endsDigits_exponentText (e : Int) : EndsDigits (exponentText e).toList := by
  obtain ⟨ds, -, -, -, hlist⟩ := exponentText_toList e
  rw [hlist]
  rintro c ⟨⟩
  decide

theorem isDigit_of_mem_zeros {k : Nat} : ∀ c ∈ List.replicate k '0', c.isDigit = true := by
  intro c hc
  rw [List.eq_of_mem_replicate hc]
  rfl

theorem isDigit_of_mem_zero : ∀ c ∈ ['0'], c.isDigit = true :=
  isDigit_of_mem_zeros (k := 1)

section

variable {ds : List Char} (hdigits : ∀ c ∈ ds, c.isDigit = true)
include hdigits

theorem writesMagnitude_belowPoint (k : Nat) :
    WritesMagnitude ('0' :: '.' :: (List.replicate k '0' ++ ds))
      (digitsValue ds * 10 ^ (-(k + ds.length : ℕ) : ℤ)) := by
  have h := writesMagnitude_point isDigit_of_mem_zero (List.cons_ne_nil _ _)
    (List.forall_mem_append.2 ⟨isDigit_of_mem_zeros (k := k), hdigits⟩) endsDigits_nil
    exponentPart?_nil
  have hvalue := digitsValue_zeros_append (k + 1) ds
  rw [List.replicate_succ, List.cons_append] at hvalue
  rw [List.append_nil, List.length_append, List.length_replicate, zero_sub, List.singleton_append,
    List.singleton_append, hvalue] at h
  exact h

theorem writesMagnitude_zeros (hne : ds ≠ []) (k : Nat) (point : Bool) :
    WritesMagnitude (ds ++ List.replicate k '0' ++ if point then ['.', '0'] else [])
      (digitsValue ds * 10 ^ (k : ℤ)) := by
  have hzeros : ∀ c ∈ ds ++ List.replicate k '0', c.isDigit = true :=
    List.forall_mem_append.2 ⟨hdigits, isDigit_of_mem_zeros⟩
  have hne : ds ++ List.replicate k '0' ≠ [] := List.append_ne_nil_of_left_ne_nil hne _
  cases point
  · have h := writesMagnitude_whole hzeros hne endsDigits_nil exponentPart?_nil
    rw [digitsValue_append_zeros, zpow_zero, mul_one] at h
    exact_mod_cast h
  · have h := writesMagnitude_point hzeros hne isDigit_of_mem_zero endsDigits_nil
      exponentPart?_nil
    have hvalue := digitsValue_append_zeros ds (k + 1)
    rw [List.replicate_succ', ← List.append_assoc] at hvalue
    have hscale : ((digitsValue ds * 10 ^ (k + 1) : ℕ) : ℚ) * 10 ^ (0 - (['0'].length : ℤ)) =
        digitsValue ds * 10 ^ (k : ℤ) := by
      rw [List.length_singleton, zero_sub, zpow_natCast, Nat.cast_one, zpow_neg_one]
      push_cast
      ring
    rwa [hvalue, hscale] at h

theorem writesMagnitude_inside {p : Nat} (hne : ds ≠ []) (hp : 0 < p) (htail : EndsDigits tail)
    (he : exponentPart? tail = some e) :
    WritesMagnitude (ds.take p ++ '.' :: (ds.drop p ++ tail))
      (digitsValue ds * 10 ^ (e - (ds.length - p : ℕ))) := by
  have hne : ds.take p ≠ [] := by
    rw [← List.length_pos_iff] at hne ⊢
    rw [List.length_take]
    omega
  have hfraction : ∀ c ∈ ds.drop p, c.isDigit = true := fun c hc =>
    hdigits c (List.mem_of_mem_drop hc)
  have h := writesMagnitude_point (fun c hc => hdigits c (List.mem_of_mem_take hc)) hne hfraction
    htail he
  rwa [List.take_append_drop, List.length_drop] at h

end

/-- The layout of a magnitude is a numeral of the same value. -/
theorem writesMagnitude_magnitudeText (style : NumeralStyle) (d : Decimal) :
    WritesMagnitude (d.magnitudeText style).toList d.magnitude := by
  by_cases hzero : d.digits = 0
  · rw [Decimal.magnitude, hzero, Nat.cast_zero, zero_mul]
    unfold Decimal.magnitudeText
    rw [if_pos hzero]
    split
    · exact fun negative => ⟨0, -1, rfl, by norm_num⟩
    · exact fun negative => ⟨0, 0, rfl, by norm_num⟩
  · have hvalue := digitsValue_toString d.trimmed.digits
    have hdigits : ∀ c ∈ (toString d.trimmed.digits).toList, c.isDigit = true :=
      fun c hc => isDigit_of_mem_toString hc
    have hne := toString_ne_nil d.trimmed.digits
    rw [← d.trimmed_magnitude, Decimal.magnitude, ← hvalue]
    unfold Decimal.magnitudeText
    rw [if_neg hzero]
    simp only
    generalize (toString d.trimmed.digits).toList = ds at *
    generalize d.trimmed.exponent = e
    have hlength : 0 < ds.length := List.length_pos_iff.2 hne
    split_ifs with hplain hsmall hwhole hpoint hsingle
    · have h := writesMagnitude_belowPoint hdigits (-(ds.length + e)).toNat
      have hexponent : (-((-(ds.length + e)).toNat + ds.length : ℕ) : ℤ) = e := by omega
      rw [hexponent] at h
      simpa [zeros] using h
    · have h := writesMagnitude_zeros hdigits hne (ds.length + e - ds.length).toNat true
      have hexponent : ((ds.length + e - ds.length).toNat : ℤ) = e := by omega
      rw [hexponent] at h
      simpa [zeros] using h
    · have h := writesMagnitude_zeros hdigits hne (ds.length + e - ds.length).toNat false
      have hexponent : ((ds.length + e - ds.length).toNat : ℤ) = e := by omega
      rw [hexponent] at h
      simpa [zeros] using h
    · have h := writesMagnitude_inside hdigits hne (p := (ds.length + e).toNat) (by omega)
        endsDigits_nil exponentPart?_nil
      have hexponent : 0 - ((ds.length - (ds.length + e).toNat : ℕ) : ℤ) = e := by omega
      rw [hexponent] at h
      simpa using h
    · have h := writesMagnitude_whole hdigits hne (endsDigits_exponentText (ds.length + e - 1))
        (exponentPart?_exponentText _)
      have hexponent : (ds.length : ℤ) + e - 1 = e := by omega
      have htake : ds.take 1 = ds := List.take_of_length_le hsingle.le
      rw [hexponent] at h
      rw [htake, hexponent]
      simpa using h
    · have h := writesMagnitude_inside hdigits hne (p := 1) (by decide)
        (endsDigits_exponentText (ds.length + e - 1)) (exponentPart?_exponentText _)
      have hexponent : (ds.length : ℤ) + e - 1 - (ds.length - 1 : ℕ) = e := by omega
      rw [hexponent] at h
      simpa using h

theorem splitSign_of_unsignedNumeral? (h : unsignedNumeral? negative cs = some d) :
    splitSign cs = (false, cs) := by
  unfold splitSign
  split
  · cases h
  · cases h
  · rfl

/-- Every layout of a decimal is a numeral that writes a decimal of the same value. -/
theorem exists_numeral?_text (style : NumeralStyle) (d : Decimal) :
    ∃ w, numeral? (d.text style) = some w ∧ w.value = d.value := by
  obtain ⟨digits, exponent, hread, hvalue⟩ := writesMagnitude_magnitudeText style d d.negative
  refine ⟨⟨d.negative, digits, exponent⟩, ?_, ?_⟩
  · have hsplit : splitSign (d.text style).toList =
        (d.negative, (d.magnitudeText style).toList) := by
      unfold Decimal.text
      rw [String.toList_append]
      cases hsign : d.negative
      · rw [hsign] at hread
        exact splitSign_of_unsignedNumeral? hread
      · rfl
    unfold numeral?
    rw [hsplit]
    exact hread
  · simp only [Decimal.value, Decimal.magnitude] at hvalue ⊢
    rw [hvalue]

end ThermalLabel
