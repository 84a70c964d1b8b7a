import InertialRelay.Proofs.DecimalReading
import InertialRelay.Text.Json
import Mathlib.Tactic.IntervalCases

/-!
# Numbers as JSON

The text of a finite value is a numeral whose digits and exponent write the shortest decimal, so it reads
back as the value (`Json.spells_floatText`). A numeral ends where what follows cannot be part of it
(`Json.Stops`).
-/

namespace InertialRelay.Text

open Binary64 (Decimal)
open Float.Model (UnpackedFloat)

/-! ### Digits -/

namespace Numeral
variable {ds es rest : List Char}

theorem ofDigits_eq (h : ∀ c ∈ ds, c.isDigit = true) : ofDigits 10 ds = Nat.ofDigitChars 10 ds 0 := by
  have hfold : ∀ (cs : List Char) (n : ℕ), (∀ c ∈ cs, c.isDigit = true) →
      cs.foldl (fun n d => n * 10 + ofDigits.digitValue d) n = Nat.ofDigitChars 10 cs n := by
    intro cs
    induction cs with
    | nil => simp
    | cons c cs ih =>
      intro n hcs
      rw [List.foldl_cons, Nat.ofDigitChars_cons, ih _ fun c hc => hcs c (List.mem_cons_of_mem _ hc),
        ofDigits.digitValue, if_pos (hcs c List.mem_cons_self), mul_comm]
      rfl
  exact hfold ds 0 h

theorem isDigit_toDigits (n : ℕ) : ∀ c ∈ Nat.toDigits 10 n, c.isDigit = true := fun _ hc =>
  Nat.isDigit_of_mem_toDigits (by norm_num) (by norm_num) hc

theorem isDigit_zeros (k : ℕ) : ∀ c ∈ List.replicate k '0', c.isDigit = true := by
  intro c hc
  rw [List.eq_of_mem_replicate hc]
  rfl

theorem isDigit_append (hd : ∀ c ∈ ds, c.isDigit = true) (he : ∀ c ∈ es, c.isDigit = true) :
    ∀ c ∈ ds ++ es, c.isDigit = true := fun c hc => (List.mem_append.1 hc).elim (hd c) (he c)

theorem ofDigits_toDigits (n : ℕ) : ofDigits 10 (Nat.toDigits 10 n) = n := by
  rw [ofDigits_eq (isDigit_toDigits n), Nat.ofDigitChars_ten_toDigits]

theorem ofDigits_append_zeros (h : ∀ c ∈ ds, c.isDigit = true) (k : ℕ) :
    ofDigits 10 (ds ++ List.replicate k '0') = ofDigits 10 ds * 10 ^ k := by
  rw [ofDigits_eq (isDigit_append h (isDigit_zeros k)), ofDigits_eq h, Nat.ofDigitChars_append,
    Nat.ofDigitChars_replicate_zero, mul_comm]

theorem ofDigits_zeros_append (h : ∀ c ∈ ds, c.isDigit = true) (k : ℕ) :
    ofDigits 10 (List.replicate k '0' ++ ds) = ofDigits 10 ds := by
  rw [ofDigits_eq (isDigit_append (isDigit_zeros k) h), ofDigits_eq h, Nat.ofDigitChars_append,
    Nat.ofDigitChars_replicate_zero, mul_zero]

theorem splitDigits_append (hd : ∀ c ∈ ds, c.isDigit = true) (hr : ∀ c ∈ rest.head?, c.isDigit = false) :
    splitDigits (ds ++ rest) = (ds, rest) := by
  have hnone : rest.takeWhile Char.isDigit = [] ∧ rest.dropWhile Char.isDigit = rest := by
    cases rest with
    | nil => exact ⟨rfl, rfl⟩
    | cons c rest => simp [hr c rfl]
  rw [splitDigits, List.takeWhile_append_of_pos hd, List.dropWhile_append_of_pos hd, hnone.1, hnone.2,
    List.append_nil]

/-- The digits of a positive number do not start with a zero. -/
theorem head_toDigits {n : ℕ} (hn : 0 < n) : (Nat.toDigits 10 n).head? ≠ some '0' := by
  induction n using Nat.strong_induction_on with
  | _ n ih =>
    by_cases h : n < 10
    · rw [Nat.toDigits_of_lt_base h]
      interval_cases n <;> decide
    · rw [Nat.toDigits_of_base_le (by norm_num) (not_lt.1 h), List.head?_append_of_ne_nil _ Nat.toDigits_ne_nil]
      exact ih (n / 10) (by omega) (by omega)

end Numeral

namespace FloatText

/-- An exponent is written with its sign and at least one digit. -/
theorem toList_exponent (e : ℤ) :
    ∃ ds, (exponent e).toList = 'e' :: (if e < 0 then '-' else '+') :: ds ∧ ds ≠ [] ∧
      (∀ c ∈ ds, c.isDigit = true) ∧ Numeral.ofDigits 10 ds = e.natAbs := by
  have hdigits := Numeral.isDigit_toDigits e.natAbs
  have hvalue := Numeral.ofDigits_toDigits e.natAbs
  have hsign : (if e < 0 then "e-" else "e+").toList = ['e', if e < 0 then '-' else '+'] := by
    split <;> rfl
  by_cases hshort : (toString e.natAbs).length < 2
  · refine ⟨'0' :: Nat.toDigits 10 e.natAbs, ?_, List.cons_ne_nil _ _, ?_, ?_⟩
    · rw [exponent, if_pos hshort, String.toList_append, String.toList_append, hsign, Nat.toString_eq_repr,
        Nat.toList_repr]
      rfl
    · exact Numeral.isDigit_append (Numeral.isDigit_zeros 1) hdigits
    · exact (Numeral.ofDigits_zeros_append hdigits 1).trans hvalue
  · refine ⟨Nat.toDigits 10 e.natAbs, ?_, Nat.toDigits_ne_nil, hdigits, hvalue⟩
    rw [exponent, if_neg hshort, String.toList_append, hsign, Nat.toString_eq_repr, Nat.toList_repr]
    rfl

end FloatText

namespace Json

open Numeral Read

/-- What can follow a number: nothing that the number could go on with. -/
def Stops (rest : List Char) : Prop :=
  ∀ c ∈ rest.head?, c.isDigit = false ∧ c ≠ '.' ∧ c ≠ 'e' ∧ c ≠ 'E'

def sign (negative : Bool) : List Char := if negative then ['-'] else []

/-- Digits after a point, if there are any. -/
def fraction (part : List Char) : List Char := if part.isEmpty then [] else '.' :: part

/-- The digits before the point, as JSON has them: at least one, and a zero in front only alone. -/
structure IsWhole (whole : List Char) : Prop where
  digits : ∀ c ∈ whole, c.isDigit = true
  ne_nil : whole ≠ []
  zero : whole.length ≤ 1 ∨ whole.head? ≠ some '0'

section
variable {negative : Bool} {whole part rest : List Char}

theorem IsWhole.guard (h : IsWhole whole) :
    (whole.isEmpty || (decide (1 < whole.length) && whole.head? == some '0')) = false := by
  obtain ⟨-, hne, hz⟩ := h
  cases whole with
  | nil => exact absurd rfl hne
  | cons c cs =>
    rcases hz with hz | hz
    · have hcs : cs.length = 0 := by simpa using hz
      simp [hcs]
    · have hc : ¬c = '0' := by simpa using hz
      simp [hc]

/-- The text of an exponent, if there is one. -/
def power : Option ℤ → List Char
  | none => []
  | some e => (FloatText.exponent e).toList

theorem power_head (e : Option ℤ) (hr : Stops rest) : ∀ c ∈ (power e ++ rest).head?, c.isDigit = false := by
  cases e with
  | none => exact fun c hc => (hr c hc).1
  | some e =>
    obtain ⟨ds, htext, -, -, -⟩ := FloatText.toList_exponent e
    rw [power, htext]
    rintro c ⟨⟩
    rfl

/-- An exponent is taken off the front with its sign and its digits. -/
theorem splitSign_power (e : ℤ) (hr : Stops rest) :
    ∃ t, power (some e) ++ rest = 'e' :: t ∧ (splitSign t).1 = decide (e < 0) ∧
      (splitDigits (splitSign t).2).1.isEmpty = false ∧ (splitDigits (splitSign t).2).2 = rest ∧
      ofDigits 10 (splitDigits (splitSign t).2).1 = e.natAbs := by
  obtain ⟨ds, htext, hne, hds, hvalue⟩ := FloatText.toList_exponent e
  have hsign : splitSign ((if e < 0 then '-' else '+') :: (ds ++ rest)) = (decide (e < 0), ds ++ rest) := by
    split <;> simp_all [splitSign]
  refine ⟨(if e < 0 then '-' else '+') :: (ds ++ rest), ?_, ?_⟩
  · rw [power, htext]
    rfl
  · rw [hsign, splitDigits_append hds fun c hc => (hr c hc).1]
    exact ⟨rfl, List.isEmpty_eq_false_iff.2 hne, rfl, hvalue⟩

theorem fraction_head (part : List Char) (e : Option ℤ) (hr : Stops rest) :
    ∀ c ∈ (fraction part ++ (power e ++ rest)).head?, c.isDigit = false := by
  cases part with
  | nil => exact power_head e hr
  | cons d part =>
    rintro c ⟨⟩
    rfl

/-- What a numeral stands for, which is an integer if it has neither a point nor an exponent. -/
def numeral (negative : Bool) (whole part : List Char) : Option ℤ → Data
  | none => if part.isEmpty then .int (signed negative whole)
    else .real (scientific negative (ofDigits 10 (whole ++ part)) (-part.length))
  | some e => .real (scientific negative (ofDigits 10 (whole ++ part)) (e - part.length))

/-- A text goes on with a point exactly if there are digits after it. -/
theorem point_iff (part : List Char) (e : Option ℤ) (hr : Stops rest) :
    (∃ t, fraction part ++ (power e ++ rest) = '.' :: t) ↔ part ≠ [] := by
  cases part with
  | cons d part => exact iff_of_true ⟨_, rfl⟩ (List.cons_ne_nil _ _)
  | nil =>
    refine iff_of_false ?_ fun h => h rfl
    rintro ⟨t, ht⟩
    change power e ++ rest = _ at ht
    cases e with
    | none =>
      change rest = _ at ht
      exact (hr '.' (by rw [ht]; rfl)).2.1 rfl
    | some e =>
      obtain ⟨t', ht', -⟩ := splitSign_power e hr
      rw [ht'] at ht
      exact absurd (List.cons.inj ht).1 (by decide)

/-- What is made of the digits of a number, from the exponent that follows them or does not. -/
theorem number?_power (negative : Bool) (whole part : List Char) (e : Option ℤ) (hr : Stops rest) :
    (match power e ++ rest with
      | c :: rest' =>
        if c = 'e' || c = 'E' then
          let (down, ds) := splitSign rest'
          let (ds, rest) := splitDigits ds
          if ds.isEmpty then none
          else
            let e : ℤ := if down then -ofDigits 10 ds else ofDigits 10 ds
            some (number?.real negative whole part e, rest)
        else some (number?.plain negative (!part.isEmpty) whole part, power e ++ rest)
      | [] => some (number?.plain negative (!part.isEmpty) whole part, [])) =
      some (numeral negative whole part e, rest) := by
  cases e with
  | some e =>
    obtain ⟨t, ht, hdown, hne, hrest, hvalue⟩ := splitSign_power e hr
    have hexp : (if decide (e < 0) = true then -(e.natAbs : ℤ) else e.natAbs) = e := by
      simp only [decide_eq_true_eq]
      omega
    simp only [ht, hne, hrest, hdown, hvalue, hexp]
    rfl
  | none =>
    have hplain : number?.plain negative (!part.isEmpty) whole part = numeral negative whole part none := by
      cases part <;> rfl
    cases rest with
    | nil => exact congrArg (fun d => some (d, [])) hplain
    | cons c rest =>
      obtain ⟨-, -, he, hE⟩ := hr c rfl
      simp only [power, List.nil_append, he, hE]
      exact congrArg (fun d => some (d, c :: rest)) hplain

theorem minus_sign (hw : IsWhole whole) (t : List Char) :
    (match sign negative ++ (whole ++ t) with | '-' :: rest => (true, rest) | s => (false, s)) =
      (negative, whole ++ t) := by
  cases negative with
  | true => rfl
  | false =>
    obtain ⟨c, cs, rfl⟩ := List.exists_cons_of_ne_nil hw.ne_nil
    show (match c :: (cs ++ t) with | '-' :: rest => (true, rest) | s => (false, s)) = _
    split
    · next h =>
      obtain rfl := (List.cons.inj h).1
      exact absurd (hw.digits '-' List.mem_cons_self) (by decide)
    · rfl

theorem number?_numeral {e : Option ℤ} (hw : IsWhole whole) (hp : ∀ c ∈ part, c.isDigit = true)
    (hr : Stops rest) :
    number? (sign negative ++ (whole ++ (fraction part ++ (power e ++ rest)))) =
      some (numeral negative whole part e, rest) := by
  have hguard := hw.guard
  have hwhole := splitDigits_append hw.digits (fraction_head part e hr)
  unfold number?
  split
  next n r hsign =>
    cases hsign.symm.trans (minus_sign hw _)
    simp only [hwhole, hguard, Bool.false_eq_true, if_false]
    split
    · next t ht =>
      obtain ⟨d, part, rfl⟩ := List.exists_cons_of_ne_nil ((point_iff part e hr).1 ⟨t, ht⟩)
      obtain rfl : (d :: part) ++ (power e ++ rest) = t := (List.cons.inj ht).2
      rw [splitDigits_append hp (power_head e hr)]
      exact number?_power negative whole (d :: part) e hr
    · next hpoint =>
      have hnone : part = [] := by
        by_contra hne
        obtain ⟨t, ht⟩ := (point_iff part e hr).2 hne
        exact hpoint t ht
      subst hnone
      exact number?_power negative whole [] e hr

/-! ### Floats -/

/-- A text with the parts of a numeral, which is no integer, and the decimal that it writes. -/
def Writes (s : List Char) (d : Decimal) : Prop :=
  ∃ whole part e, s = whole ++ (fraction part ++ power e) ∧ IsWhole whole ∧ (∀ c ∈ part, c.isDigit = true) ∧
    (part ≠ [] ∨ e ≠ none) ∧ (ofDigits 10 (whole ++ part) : ℚ) * 10 ^ (e.getD 0 - part.length) = d.value

section
variable {d : Decimal} {D : List Char} {k : ℕ} (hD : ∀ c ∈ D, c.isDigit = true) (hne : D ≠ [])
  (hd : ofDigits 10 D = d.digits)

include hD hne hd in
theorem writes_integer (hhead : D.head? ≠ some '0') (he : d.exponent = k) :
    Writes (D ++ List.replicate k '0' ++ ['.', '0']) d := by
  refine ⟨D ++ List.replicate k '0', ['0'], none, by rfl, ⟨isDigit_append hD (isDigit_zeros k), by simp [hne],
    .inr (by rwa [List.head?_append_of_ne_nil _ hne])⟩, isDigit_zeros 1, .inl (List.cons_ne_nil _ _), ?_⟩
  have h1 : ofDigits 10 (D ++ List.replicate k '0' ++ ['0']) = d.digits * 10 ^ k * 10 := by
    rw [← hd, ← ofDigits_append_zeros hD]
    exact ofDigits_append_zeros (isDigit_append hD (isDigit_zeros k)) 1
  rw [h1, Decimal.value, he]
  push_cast
  norm_num [mul_assoc]

include hD hd in
theorem writes_point (hhead : D.head? ≠ some '0') (hk : 0 < k) (hkn : k < D.length)
    (he : d.exponent = k - D.length) :
    Writes (D.take k ++ '.' :: D.drop k) d := by
  have hdrop : D.drop k ≠ [] := by simpa using hkn
  refine ⟨D.take k, D.drop k, none, ?_, ⟨fun c hc => hD c (List.mem_of_mem_take hc), ?_, .inr ?_⟩,
    fun c hc => hD c (List.mem_of_mem_drop hc), .inl hdrop, ?_⟩
  · simp [fraction, power, hdrop]
  · rw [Ne, List.take_eq_nil_iff, not_or]
    exact ⟨hk.ne', fun h => by simp [h] at hkn⟩
  · rwa [List.head?_take, if_neg hk.ne']
  · rw [List.take_append_drop, hd, Decimal.value, he]
    congr 2
    simp only [Option.getD_none, List.length_drop]
    omega

include hD hne hd in
theorem writes_small (he : d.exponent = -(k + D.length)) :
    Writes ('0' :: '.' :: (List.replicate k '0' ++ D)) d := by
  refine ⟨['0'], List.replicate k '0' ++ D, none, ?_, ⟨isDigit_zeros 1, List.cons_ne_nil _ _, .inl le_rfl⟩,
    isDigit_append (isDigit_zeros k) hD, .inl ?_, ?_⟩
  · simp [fraction, power, hne]
  · simp [hne]
  · have h1 : ofDigits 10 (['0'] ++ (List.replicate k '0' ++ D)) = d.digits := by
      rw [← hd, ← ofDigits_zeros_append hD k]
      exact ofDigits_zeros_append (isDigit_append (isDigit_zeros k) hD) 1
    rw [h1, Decimal.value, he]
    simp

include hD hne hd in
theorem writes_power {e : ℤ} (he : d.exponent = e + 1 - D.length) :
    Writes (D.take 1 ++ (fraction (D.drop 1) ++ (FloatText.exponent e).toList)) d := by
  refine ⟨D.take 1, D.drop 1, some e, rfl, ⟨fun c hc => hD c (List.mem_of_mem_take hc), ?_, .inl ?_⟩,
    fun c hc => hD c (List.mem_of_mem_drop hc), .inr (Option.some_ne_none e), ?_⟩
  · simp [hne]
  · simp
  · rw [List.take_append_drop, hd, Decimal.value, he]
    congr 2
    have := List.length_pos_of_ne_nil hne
    simp only [Option.getD_some, List.length_drop]
    omega

end

theorem writes_layout {d : Decimal} (hd : 0 < d.digits) : Writes (FloatText.layout d).toList d := by
  have hdigits := isDigit_toDigits d.digits
  have hvalue := ofDigits_toDigits d.digits
  have hhead := head_toDigits hd
  have hne := Nat.toDigits_ne_nil (n := d.digits) (b := 10)
  have htext : (toString d.digits).toList = Nat.toDigits 10 d.digits := Nat.toList_repr
  have hlength : (toString d.digits).length = (Nat.toDigits 10 d.digits).length := by
    rw [← htext, String.length_toList]
  unfold FloatText.layout
  simp only [hlength, htext]
  have hpos : 0 < (Nat.toDigits 10 d.digits).length := List.length_pos_of_ne_nil hne
  generalize Nat.toDigits 10 d.digits = D at *
  split
  · split
    · next hk =>
      have h := writes_integer hdigits hne hvalue hhead (k := d.exponent.toNat) (by omega)
      rw [String.toList_append, String.toList_append, htext, FloatText.zeros, String.toList_ofList]
      exact h
    · split
      · next ht hk hn =>
        have h := writes_point hdigits hvalue hhead (k := (d.exponent + D.length - 1).toNat + 1) (by omega)
          (by omega) (by omega)
        rw [String.toList_append, String.toList_append, String.toList_ofList, String.toList_ofList]
        simpa using h
      · next ht hk hn =>
        have h := writes_small hdigits hne hvalue (k := (-(d.exponent + D.length - 1) - 1).toNat) (by omega)
        rw [String.toList_append, String.toList_append, htext, FloatText.zeros]
        simpa using h
  · have h := writes_power hdigits hne hvalue (e := d.exponent + D.length - 1) (by omega)
    have hfrac : (if (D.drop 1).isEmpty then "" else "." ++ String.ofList (D.drop 1)).toList =
        fraction (D.drop 1) := by
      unfold fraction
      split <;> simp
    rw [String.toList_append, String.toList_append, String.toList_ofList, hfrac, List.append_assoc]
    exact h

end

/-! ### Texts of numbers -/

/-- A text that writes a number. -/
def Spells (s : List Char) (d : Data) : Prop :=
  ∃ negative whole part e, s = sign negative ++ (whole ++ (fraction part ++ power e)) ∧ IsWhole whole ∧
    (∀ c ∈ part, c.isDigit = true) ∧ numeral negative whole part e = d

/-- A character that shows, in ASCII. -/
def Shows (c : Char) : Prop := 0x20 ≤ c.toNat ∧ c.toNat < 0x7f

instance (c : Char) : Decidable (Shows c) := inferInstanceAs (Decidable (_ ∧ _))

theorem shows_of_isDigit {c : Char} (h : c.isDigit = true) : Shows c := by
  obtain ⟨hlow, hhigh⟩ := Char.isDigit_iff_toNat.1 h
  have h0 : '0'.toNat = 48 := rfl
  have h9 : '9'.toNat = 57 := rfl
  exact ⟨by omega, by omega⟩

namespace Spells
variable {s rest : List Char} {d : Data}

theorem number? (h : Spells s d) (hr : Stops rest) : Read.number? (s ++ rest) = some (d, rest) := by
  obtain ⟨negative, whole, part, e, rfl, hw, hp, rfl⟩ := h
  rw [← number?_numeral hw hp hr]
  simp only [List.append_assoc]

theorem head (h : Spells s d) : ∃ c t, s = c :: t ∧ (c = '-' ∨ c.isDigit = true) := by
  obtain ⟨negative, whole, part, e, rfl, hw, -, -⟩ := h
  cases negative with
  | true => exact ⟨_, _, rfl, .inl rfl⟩
  | false =>
    obtain ⟨c, cs, rfl⟩ := List.exists_cons_of_ne_nil hw.ne_nil
    exact ⟨_, _, rfl, .inr (hw.digits c List.mem_cons_self)⟩

theorem shows (h : Spells s d) : ∀ c ∈ s, Shows c := by
  obtain ⟨negative, whole, part, e, rfl, hw, hp, -⟩ := h
  have hsign : ∀ c ∈ sign negative, Shows c := by cases negative <;> simp [sign, Shows]
  have hfraction : ∀ c ∈ fraction part, Shows c := by
    unfold fraction
    split
    · simp
    · rintro c (_ | ⟨_, hc⟩)
      · decide
      · exact shows_of_isDigit (hp c hc)
  have hpower : ∀ c ∈ power e, Shows c := by
    cases e with
    | none => simp [power]
    | some e =>
      obtain ⟨ds, htext, -, hds, -⟩ := FloatText.toList_exponent e
      rw [power, htext]
      rintro c (_ | ⟨_, _ | ⟨_, hc⟩⟩)
      · decide
      · split <;> decide
      · exact shows_of_isDigit (hds c hc)
  intro c hc
  simp only [List.mem_append] at hc
  rcases hc with hc | hc | hc | hc
  · exact hsign c hc
  · exact shows_of_isDigit (hw.digits c hc)
  · exact hfraction c hc
  · exact hpower c hc

end Spells

theorem spells_of_writes {s : UnpackedFloat.Sign} {m : ℕ} {e : ℤ} {hm : 0 < m} {x : Float}
    (hx : Binary64.unpack x = .finite s m e hm) {t : List Char} (ht : Writes t (Binary64.shortest m e)) :
    Spells (sign (s == .negative) ++ t) (.real x) := by
  obtain ⟨hc, he⟩ := Binary64.canonical_of_unpack hx
  have hholds := Binary64.shortest_holds hc he
  obtain ⟨whole, part, k, rfl, hw, hp, hreal, hvalue⟩ := ht
  rw [← hvalue] at hholds
  have hpos : 0 < ofDigits 10 (whole ++ part) := by
    have hv := Binary64.Interval.pos_of_holds hc.pos hholds
    have hdigits : (0 : ℚ) < ofDigits 10 (whole ++ part) := pos_of_mul_pos_left hv (by positivity)
    exact_mod_cast hdigits
  have hread := scientific_of_holds hx hpos hholds
  refine ⟨s == .negative, whole, part, k, rfl, hw, hp, ?_⟩
  cases k with
  | some k => exact congrArg Data.real hread
  | none =>
    have hne : part.isEmpty = false := List.isEmpty_eq_false_iff.2 (hreal.resolve_right fun h => h rfl)
    rw [Option.getD_none, zero_sub] at hread
    simp [numeral, hne, hread]

theorem spells_floatText (words : FloatWords) {x : Float} (hx : x.isFinite = true) :
    Spells (floatText words x).toList (.real x) := by
  change (Binary64.unpack x).isFinite = true at hx
  unfold floatText
  cases h : Binary64.unpack x with
  | infinity s => rw [h] at hx; cases hx
  | notANumber => rw [h] at hx; cases hx
  | zero s =>
    have hzero : Spells (sign (s == .negative) ++ "0.0".toList) (.real x) :=
      ⟨s == .negative, ['0'], ['0'], none, rfl, ⟨isDigit_zeros 1, List.cons_ne_nil _ _, .inl le_rfl⟩,
        isDigit_zeros 1, congrArg Data.real (scientific_zero h)⟩
    cases s with
    | negative =>
      show Spells ("-" ++ "0.0").toList _
      rw [String.toList_append]
      exact hzero
    | positive => exact hzero
  | finite s m e hm =>
    obtain ⟨hc, he⟩ := Binary64.canonical_of_unpack h
    have hspells := spells_of_writes h (writes_layout (Binary64.shortest_digits_pos hc he))
    cases s with
    | negative =>
      show Spells ("-" ++ FloatText.layout _).toList _
      rw [String.toList_append]
      exact hspells
    | positive => exact hspells

/-- The digits of a number are digits before a point. -/
theorem isWhole_toDigits (n : ℕ) : IsWhole (Nat.toDigits 10 n) := by
  refine ⟨isDigit_toDigits n, Nat.toDigits_ne_nil, ?_⟩
  rcases Nat.eq_zero_or_pos n with rfl | hn
  · exact .inl le_rfl
  · exact .inr (head_toDigits hn)

theorem spells_toString (n : ℤ) : Spells (toString n).toList (.int n) := by
  rw [Int.toString_eq_repr, Int.repr_eq_if]
  split
  · next h =>
    refine ⟨false, Nat.toDigits 10 n.toNat, [], none, ?_, isWhole_toDigits _, nofun, ?_⟩
    · simp [sign, fraction, power]
    · simp [numeral, signed, ofDigits_toDigits, h]
  · next h =>
    refine ⟨true, Nat.toDigits 10 (-n).toNat, [], none, ?_, isWhole_toDigits _, nofun, ?_⟩
    · simp [sign, fraction, power]
    · simp only [numeral, signed, ofDigits_toDigits, List.isEmpty_nil, if_true]
      congr 1
      omega

end Json

end InertialRelay.Text
