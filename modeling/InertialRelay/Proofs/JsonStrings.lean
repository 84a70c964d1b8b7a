import InertialRelay.Proofs.NumberTexts

/-!
# Strings as JSON

Every character has one text of printable ASCII, from which it is read back whatever follows
(`Json.char?_char`): a letter after a backslash, one UTF-16 unit, or two for a character beyond the first plane.
So a string is read back up to its closing quote (`Json.string?_string`).
-/

namespace InertialRelay.Text.Json

open Read

/-! ### Characters -/

section
variable {n : ℕ} {c : Char} {rest : List Char}

theorem hexDigit?_digitChar : ∀ n < 16, hexDigit? (Nat.digitChar n) = some n := by decide

theorem shows_digitChar : ∀ n < 16, Shows (Nat.digitChar n) := by decide

theorem toDigits_sixteen (h : 16 ≤ n) :
    Nat.toDigits 16 n = Nat.toDigits 16 (n / 16) ++ [Nat.digitChar (n % 16)] :=
  Nat.toDigits_of_base_le (by norm_num) h

/-- Four hexadecimal digits of a UTF-16 unit. -/
theorem toList_hex (hn : n < 0x10000) :
    (hex 4 n).toList = [Nat.digitChar (n / 4096), Nat.digitChar (n / 256 % 16), Nat.digitChar (n / 16 % 16),
      Nat.digitChar (n % 16)] := by
  rw [hex, String.toList_ofList]
  by_cases h1 : n < 16
  · rw [Nat.toDigits_of_lt_base h1, show n / 4096 = 0 by omega, show n / 256 % 16 = 0 by omega,
      show n / 16 % 16 = 0 by omega, show n % 16 = n by omega]
    rfl
  rw [toDigits_sixteen (not_lt.1 h1)]
  by_cases h2 : n / 16 < 16
  · rw [Nat.toDigits_of_lt_base h2, show n / 4096 = 0 by omega, show n / 256 % 16 = 0 by omega,
      show n / 16 % 16 = n / 16 by omega]
    rfl
  rw [toDigits_sixteen (not_lt.1 h2), Nat.div_div_eq_div_mul]
  by_cases h3 : n / 256 < 16
  · rw [Nat.toDigits_of_lt_base h3, show n / 4096 = 0 by omega, show n / 256 % 16 = n / 256 by omega]
    rfl
  · rw [toDigits_sixteen (not_lt.1 h3), Nat.div_div_eq_div_mul, Nat.toDigits_of_lt_base (by omega)]
    rfl

theorem unit?_hex (hn : n < 0x10000) : unit? ((hex 4 n).toList ++ rest) = some (n, rest) := by
  rw [toList_hex hn]
  simp only [List.cons_append, List.nil_append, unit?, hexDigit?_digitChar (n / 4096) (by omega),
    hexDigit?_digitChar (n / 256 % 16) (by omega), hexDigit?_digitChar (n / 16 % 16) (by omega),
    hexDigit?_digitChar (n % 16) (by omega)]
  show some (_, rest) = some (n, rest)
  congr 2
  omega

/-- A unit outside the surrogates stands for a character by itself. -/
theorem escaped?_unit (hn : n < 0x10000) (hs : n < 0xd800 ∨ 0xdfff < n) :
    escaped? ((hex 4 n).toList ++ rest) = some (Char.ofNat n, rest) := by
  have h1 : (decide (0xd800 ≤ n) && decide (n < 0xdc00)) = false := by simp; omega
  have h2 : (decide (0xdc00 ≤ n) && decide (n < 0xe000)) = false := by simp; omega
  simp only [escaped?, unit?_hex hn, Option.bind_eq_bind, Option.bind_some, h1, h2]
  rfl

/-- Two surrogates stand for a character beyond the first plane. -/
theorem escaped?_pair (hn : n < 0x100000) :
    escaped? ((hex 4 (0xd800 + n / 0x400)).toList ++ (Write.unit (0xdc00 + n % 0x400) ++ rest)) =
      some (Char.ofNat (0x10000 + n), rest) := by
  obtain ⟨high, hhigh⟩ : ∃ high, high = 0xd800 + n / 0x400 := ⟨_, rfl⟩
  obtain ⟨low, hlow⟩ : ∃ low, low = 0xdc00 + n % 0x400 := ⟨_, rfl⟩
  have hnext : Write.unit low ++ rest = '\\' :: 'u' :: ((hex 4 low).toList ++ rest) := rfl
  have h1 : (decide (0xd800 ≤ high) && decide (high < 0xdc00)) = true := by simp; omega
  have h2 : (decide (0xdc00 ≤ low) && decide (low < 0xe000)) = true := by simp; omega
  have hvalue : 0x10000 + (high - 0xd800) * 0x400 + (low - 0xdc00) = 0x10000 + n := by omega
  rw [← hhigh, ← hlow, hnext]
  simp only [escaped?, unit?_hex (show high < 0x10000 by omega), unit?_hex (show low < 0x10000 by omega),
    Option.bind_eq_bind, Option.bind_some, h1, h2, if_true, hvalue]
  rfl

theorem char?_unit (n : ℕ) (rest : List Char) :
    char? (Write.unit n ++ rest) = escaped? ((hex 4 n).toList ++ rest) := rfl

theorem char?_units (c : Char) : char? (Write.units c ++ rest) = some (c, rest) := by
  have hvalid : c.toNat < 0xd800 ∨ (0xdfff < c.toNat ∧ c.toNat < 0x110000) := c.valid
  simp only [Write.units]
  split
  · next hn =>
    rw [char?_unit, escaped?_unit hn (by omega), Char.ofNat_toNat]
  · next hn =>
    rw [List.append_assoc, char?_unit, escaped?_pair (by omega),
      show 0x10000 + (c.toNat - 0x10000) = c.toNat by omega, Char.ofNat_toNat]

theorem char?_self (hlow : 0x20 ≤ c.toNat) (hback : c ≠ '\\') : char? (c :: rest) = some (c, rest) := by
  unfold char?
  split
  · next h => exact absurd (List.cons.inj h).1 hback
  · next h => exact absurd (List.cons.inj h).1 hback
  · next h =>
    obtain ⟨rfl, rfl⟩ := List.cons.inj h
    rw [if_neg]
    simp only [Bool.or_eq_true, decide_eq_true_eq, not_or]
    exact ⟨not_lt.2 hlow, hback⟩
  · next h => cases h

/-- What a character becomes in a string: itself, a backslash with a letter that stands for it, or its units. -/
theorem char_cases (c : Char) :
    (Write.char c = [c] ∧ c ≠ '"' ∧ c ≠ '\\' ∧ Shows c) ∨
      (∃ x, Write.char c = ['\\', x] ∧ Shows x ∧ ∀ rest, char? ('\\' :: x :: rest) = some (c, rest)) ∨
      Write.char c = Write.units c := by
  unfold Write.char
  split
  · next h => subst h; exact .inr (.inl ⟨_, rfl, by decide, fun _ => rfl⟩)
  split
  · next h => subst h; exact .inr (.inl ⟨_, rfl, by decide, fun _ => rfl⟩)
  split
  · next h => subst h; exact .inr (.inl ⟨_, rfl, by decide, fun _ => rfl⟩)
  split
  · next h => subst h; exact .inr (.inl ⟨_, rfl, by decide, fun _ => rfl⟩)
  split
  · next h => subst h; exact .inr (.inl ⟨_, rfl, by decide, fun _ => rfl⟩)
  split
  · next h =>
    obtain rfl : c = Char.ofNat 0x08 := by rw [← h, Char.ofNat_toNat]
    exact .inr (.inl ⟨_, rfl, by decide, fun _ => rfl⟩)
  split
  · next h =>
    obtain rfl : c = Char.ofNat 0x0c := by rw [← h, Char.ofNat_toNat]
    exact .inr (.inl ⟨_, rfl, by decide, fun _ => rfl⟩)
  split
  · next hquote hback _ _ _ _ _ h =>
    rw [Bool.and_eq_true, decide_eq_true_eq, decide_eq_true_eq] at h
    exact .inl ⟨rfl, hquote, hback, h⟩
  · exact .inr (.inr rfl)

theorem char?_char (c : Char) (rest : List Char) : char? (Write.char c ++ rest) = some (c, rest) := by
  rcases char_cases c with ⟨h, -, hback, hshows⟩ | ⟨x, h, -, hread⟩ | h
  · rw [h]
    exact char?_self hshows.1 hback
  · rw [h]
    exact hread rest
  · rw [h]
    exact char?_units c

theorem shows_unit (hn : n < 0x10000) : ∀ x ∈ Write.unit n, Shows x := by
  rw [Write.unit, toList_hex hn]
  intro x hx
  simp only [List.mem_cons, List.not_mem_nil, or_false] at hx
  rcases hx with rfl | rfl | rfl | rfl | rfl | rfl
  · decide
  · decide
  · exact shows_digitChar _ (by omega)
  · exact shows_digitChar _ (by omega)
  · exact shows_digitChar _ (by omega)
  · exact shows_digitChar _ (by omega)

theorem shows_units (c : Char) : ∀ x ∈ Write.units c, Shows x := by
  have hvalid : c.toNat < 0xd800 ∨ (0xdfff < c.toNat ∧ c.toNat < 0x110000) := c.valid
  simp only [Write.units]
  split
  · next hn => exact shows_unit hn
  · intro x hx
    rcases List.mem_append.1 hx with hx | hx
    · exact shows_unit (by omega) x hx
    · exact shows_unit (by omega) x hx

theorem shows_char (c : Char) : ∀ x ∈ Write.char c, Shows x := by
  rcases char_cases c with ⟨h, -, -, hshows⟩ | ⟨x, h, hx, -⟩ | h
  · rw [h]
    simpa using hshows
  · rw [h]
    simpa using ⟨by decide, hx⟩
  · rw [h]
    exact shows_units c

/-- What stands for a character in a string begins with no quote. -/
theorem char_head (c : Char) : ∃ x t, Write.char c = x :: t ∧ x ≠ '"' := by
  rcases char_cases c with ⟨h, hquote, -, -⟩ | ⟨x, h, -, -⟩ | h
  · exact ⟨c, [], h, hquote⟩
  · exact ⟨'\\', [x], h, by decide⟩
  · rw [h]
    simp only [Write.units]
    split
    · exact ⟨'\\', _, rfl, by decide⟩
    · exact ⟨'\\', _, rfl, by decide⟩

end

/-! ### Strings -/

theorem string?_flatMap (cs rest : List Char) {fuel : ℕ} (hf : cs.length < fuel) :
    string? fuel (cs.flatMap Write.char ++ '"' :: rest) = some (cs, rest) := by
  induction cs generalizing fuel with
  | nil =>
    obtain ⟨k, rfl⟩ := Nat.exists_eq_succ_of_ne_zero (Nat.pos_iff_ne_zero.1 hf)
    rfl
  | cons c cs ih =>
    obtain ⟨k, rfl⟩ := Nat.exists_eq_succ_of_ne_zero (Nat.pos_iff_ne_zero.1 (Nat.zero_lt_of_lt hf))
    have hc := char?_char c (cs.flatMap Write.char ++ '"' :: rest)
    have hcs := ih (Nat.lt_of_succ_lt_succ hf)
    obtain ⟨x, t, hx, hquote⟩ := char_head c
    rw [List.flatMap_cons, List.append_assoc]
    rw [hx, List.cons_append] at hc ⊢
    unfold string?
    split
    · next h => cases h
    · next h _ => exact absurd (List.cons.inj h).1 hquote
    · next h _ =>
      cases h
      simp only [hc, hcs, Option.bind_eq_bind, Option.bind_some]
      rfl

theorem length_le_flatMap (cs : List Char) : cs.length ≤ (cs.flatMap Write.char).length := by
  induction cs with
  | nil => exact le_rfl
  | cons c cs ih =>
    obtain ⟨x, t, hx, -⟩ := char_head c
    rw [List.flatMap_cons, hx, List.length_append, List.length_cons, List.length_cons]
    omega

theorem shows_string (s : String) : ∀ c ∈ Write.string s, Shows c := by
  intro c hc
  simp only [Write.string, List.mem_append, List.mem_cons, List.mem_flatMap, List.not_mem_nil, or_false] at hc
  rcases hc with (rfl | ⟨d, -, hd⟩) | rfl
  · decide
  · exact shows_char d c hd
  · decide

/-- The rest of a string after its opening quote. -/
theorem string?_string (s : String) (rest : List Char) :
    ∃ t, Write.string s ++ rest = '"' :: t ∧ string? (t.length + 1) t = some (s.toList, rest) := by
  refine ⟨s.toList.flatMap Write.char ++ '"' :: rest, ?_, string?_flatMap _ _ ?_⟩
  · simp [Write.string]
  · have := length_le_flatMap s.toList
    simp only [List.length_append, List.length_cons]
    omega

end InertialRelay.Text.Json
