import InertialRelay.Proofs.JsonRoundTrip

/-!
# The grammar of JSON

`Json.Derives` has the productions of the standard grammar, blanks between the tokens included. What is written of a
value derives from it exactly if all floats of the value are finite (`Json.derives_write_iff`): the words for NaN and
the infinities begin with capitals, and the grammar has capitals of that kind only between quotes (`Json.scan`).
-/

namespace InertialRelay.Text.Json

/-! ### Productions -/

def Blank (s : List Char) : Prop := ∀ c ∈ s, c = ' ' ∨ c = '\t' ∨ c = '\n' ∨ c = '\r'

def IsHexDigit (c : Char) : Prop := c.isDigit = true ∨ ('a' ≤ c ∧ c ≤ 'f') ∨ ('A' ≤ c ∧ c ≤ 'F')

/-- What stands in a string for one UTF-16 unit or for one character. -/
inductive Glyph : List Char → Prop
  | plain {c : Char} (hlow : 0x20 ≤ c.toNat) (hquote : c ≠ '"') (hback : c ≠ '\\') : Glyph [c]
  | letter {c : Char} (h : c ∈ ['"', '\\', '/', 'b', 'f', 'n', 'r', 't']) : Glyph ['\\', c]
  | unit {a b c d : Char} (h : ∀ x ∈ [a, b, c, d], IsHexDigit x) : Glyph ['\\', 'u', a, b, c, d]

inductive Glyphs : List Char → Prop
  | nil : Glyphs []
  | cons {g s : List Char} (hg : Glyph g) (hs : Glyphs s) : Glyphs (g ++ s)

inductive IsString : List Char → Prop
  | quoted {s : List Char} (h : Glyphs s) : IsString ('"' :: s ++ ['"'])

/-- An exponent, which a number need not have. -/
inductive IsPower : List Char → Prop
  | none : IsPower []
  | some {mark : Char} {sign digits : List Char} (hmark : mark = 'e' ∨ mark = 'E')
      (hsign : sign = [] ∨ sign = ['+'] ∨ sign = ['-']) (hne : digits ≠ [])
      (hdigits : ∀ c ∈ digits, c.isDigit = true) : IsPower (mark :: (sign ++ digits))

inductive IsNumber : List Char → Prop
  | parts {negative : Bool} {whole part power : List Char} (hw : IsWhole whole)
      (hp : ∀ c ∈ part, c.isDigit = true) (he : IsPower power) :
      IsNumber (sign negative ++ (whole ++ (fraction part ++ power)))

/-- What the grammar has productions for. An element is a value among blanks, and a whole text is one element. -/
inductive Symbol where
  | value
  | object
  | element
  | elements
  | member
  | members

inductive Derives : Symbol → List Char → Prop
  | word {s : List Char} (h : s ∈ ["true".toList, "false".toList, "null".toList]) : Derives .value s
  | number {s : List Char} (h : IsNumber s) : Derives .value s
  | string {s : List Char} (h : IsString s) : Derives .value s
  | emptyArray {b : List Char} (h : Blank b) : Derives .value ('[' :: b ++ [']'])
  | array {s : List Char} (h : Derives .elements s) : Derives .value ('[' :: s ++ [']'])
  | structured {s : List Char} (h : Derives .object s) : Derives .value s
  | emptyObject {b : List Char} (h : Blank b) : Derives .object ('\x7b' :: b ++ ['\x7d'])
  | object {s : List Char} (h : Derives .members s) : Derives .object ('\x7b' :: s ++ ['\x7d'])
  | element {b s b' : List Char} (hb : Blank b) (h : Derives .value s) (hb' : Blank b') :
      Derives .element (b ++ s ++ b')
  | lastElement {s : List Char} (h : Derives .element s) : Derives .elements s
  | nextElement {s t : List Char} (h : Derives .element s) (ht : Derives .elements t) :
      Derives .elements (s ++ ',' :: t)
  | member {b k b' s : List Char} (hb : Blank b) (hk : IsString k) (hb' : Blank b') (h : Derives .element s) :
      Derives .member (b ++ k ++ b' ++ ':' :: s)
  | lastMember {s : List Char} (h : Derives .member s) : Derives .members s
  | nextMember {s t : List Char} (h : Derives .member s) (ht : Derives .members t) :
      Derives .members (s ++ ',' :: t)

/-! ### Capitals outside strings -/

/-- Where a character stands: outside strings, in one, or in one after a backslash. -/
inductive Place where
  | outside
  | inside
  | escaped
  deriving DecidableEq

/-- Where the next character stands, unless a word for a value without digits begins here. -/
def Place.next : Place → Char → Option Place
  | outside, c => if c = '"' then some inside else if c = 'N' ∨ c = 'I' then none else some outside
  | inside, c => some (if c = '"' then outside else if c = '\\' then escaped else inside)
  | escaped, _ => some inside

/-- Where a text ends that begins at a place. -/
def scan (p : Place) (s : List Char) : Option Place := s.foldlM Place.next p

theorem scan_append (p : Place) (s t : List Char) : scan p (s ++ t) = (scan p s).bind (scan · t) := by
  rw [scan, List.foldlM_append]
  rfl

theorem scan_cons (p : Place) (c : Char) (s : List Char) : scan p (c :: s) = (p.next c).bind (scan · s) := by
  rw [scan, List.foldlM_cons]
  rfl

/-- A text without such words, which leaves no string open. -/
def Quiet (s : List Char) : Prop := scan .outside s = some .outside

/-- A character that changes nothing outside strings. -/
def Calm (c : Char) : Prop := c ≠ '"' ∧ c ≠ 'N' ∧ c ≠ 'I'

instance (c : Char) : Decidable (Calm c) := inferInstanceAs (Decidable (_ ∧ _))

section
variable {c : Char} {s t : List Char}

theorem Quiet.append (hs : Quiet s) (ht : Quiet t) : Quiet (s ++ t) := by
  rw [Quiet, scan_append, hs]
  exact ht

theorem quiet_of_calm (h : ∀ c ∈ s, Calm c) : Quiet s := by
  induction s with
  | nil => rfl
  | cons c s ih =>
    obtain ⟨hquote, hN, hI⟩ := h c List.mem_cons_self
    have hc : Place.next .outside c = some .outside := by simp [Place.next, hquote, hN, hI]
    rw [Quiet, scan_cons, hc]
    exact ih fun d hd => h d (List.mem_cons_of_mem _ hd)

theorem Quiet.cons (hc : Calm c) (hs : Quiet s) : Quiet (c :: s) :=
  (quiet_of_calm (s := [c]) (by simpa using hc)).append hs

theorem Quiet.within {first last : Char} (hs : Quiet s) (hfirst : Calm first) (hlast : Calm last) :
    Quiet (first :: s ++ [last]) :=
  (hs.cons hfirst).append (quiet_of_calm (by simpa using hlast))

theorem calm_of_isDigit (h : c.isDigit = true) : Calm c := by
  refine ⟨?_, ?_, ?_⟩ <;> rintro rfl <;> exact absurd h (by decide)

theorem Blank.quiet (h : Blank s) : Quiet s := by
  refine quiet_of_calm fun c hc => ?_
  rcases h c hc with rfl | rfl | rfl | rfl <;> decide

theorem next_inside (hquote : c ≠ '"') (hback : c ≠ '\\') : Place.next .inside c = some .inside := by
  simp [Place.next, hquote, hback]

theorem IsHexDigit.next_inside (h : IsHexDigit c) : Place.next .inside c = some .inside := by
  refine Json.next_inside ?_ ?_ <;> rintro rfl <;> exact absurd h (by unfold IsHexDigit; decide)

theorem Glyph.scan_inside {g : List Char} (h : Glyph g) : scan .inside g = some .inside := by
  cases h with
  | plain _ hquote hback =>
    rw [scan_cons, next_inside hquote hback]
    rfl
  | letter _ => rfl
  | @unit a b c d h =>
    simp only [List.forall_mem_cons] at h
    obtain ⟨ha, hb, hc, hd, -⟩ := h
    have hu : scan .inside ('\\' :: 'u' :: [a, b, c, d]) = scan .inside [a, b, c, d] := rfl
    rw [hu]
    simp only [scan_cons, ha.next_inside, hb.next_inside, hc.next_inside, hd.next_inside, Option.bind_some]
    rfl

theorem Glyphs.scan_inside (h : Glyphs s) : scan .inside s = some .inside := by
  induction h with
  | nil => rfl
  | cons hg _ ih =>
    rw [scan_append, hg.scan_inside]
    exact ih

theorem IsString.quiet (h : IsString s) : Quiet s := by
  obtain ⟨h⟩ := h
  have hopen : scan .outside ['"'] = some .inside := rfl
  rw [Quiet, ← List.singleton_append, scan_append, scan_append, hopen, Option.bind_some, h.scan_inside]
  rfl

theorem IsPower.quiet (h : IsPower s) : Quiet s := by
  cases h with
  | none => rfl
  | @some mark sign digits hmark hsign _ hdigits =>
    have hm : Calm mark := by rcases hmark with rfl | rfl <;> decide
    have hs : Quiet sign := by rcases hsign with rfl | rfl | rfl <;> rfl
    exact (hs.append (quiet_of_calm fun c hc => calm_of_isDigit (hdigits c hc))).cons hm

theorem IsNumber.quiet (h : IsNumber s) : Quiet s := by
  obtain @⟨negative, whole, part, power, hw, hp, he⟩ := h
  have hsign : Quiet (sign negative) := by cases negative <;> rfl
  have hwhole : Quiet whole := quiet_of_calm fun c hc => calm_of_isDigit (hw.digits c hc)
  have hpart : Quiet (fraction part) := by
    unfold fraction
    split
    · rfl
    · exact (quiet_of_calm fun c hc => calm_of_isDigit (hp c hc)).cons (by decide)
  exact hsign.append (hwhole.append (hpart.append he.quiet))

/-- Whatever derives from the grammar is quiet. -/
theorem Derives.quiet {n : Symbol} (h : Derives n s) : Quiet s := by
  induction h with
  | word h =>
    simp only [List.mem_cons, List.not_mem_nil, or_false] at h
    rcases h with rfl | rfl | rfl <;> rfl
  | number h => exact h.quiet
  | string h => exact h.quiet
  | emptyArray h => exact h.quiet.within (by decide) (by decide)
  | array _ ih => exact ih.within (by decide) (by decide)
  | structured _ ih => exact ih
  | emptyObject h => exact h.quiet.within (by decide) (by decide)
  | object _ ih => exact ih.within (by decide) (by decide)
  | element hb _ hb' ih => exact (hb.quiet.append ih).append hb'.quiet
  | lastElement _ ih => exact ih
  | nextElement _ _ ih iht => exact ih.append (iht.cons (by decide))
  | member hb hk hb' _ ih => exact ((hb.quiet.append hk.quiet).append hb'.quiet).append (ih.cons (by decide))
  | lastMember _ ih => exact ih
  | nextMember _ _ ih iht => exact ih.append (iht.cons (by decide))

/-! ### What is written -/

theorem glyph_unit {n : ℕ} (hn : n < 0x10000) : Glyph (Write.unit n) := by
  rw [Write.unit, toList_hex hn]
  have hdigit : ∀ m < 16, IsHexDigit (Nat.digitChar m) := by unfold IsHexDigit; decide
  refine .unit ?_
  simp only [List.forall_mem_cons]
  exact ⟨hdigit _ (by omega), hdigit _ (by omega), hdigit _ (by omega), hdigit _ (by omega), List.forall_mem_nil _⟩

theorem Glyph.glyphs {g : List Char} (h : Glyph g) : Glyphs g := by
  simpa using Glyphs.cons h .nil

theorem Glyphs.append (hs : Glyphs s) (ht : Glyphs t) : Glyphs (s ++ t) := by
  induction hs with
  | nil => exact ht
  | cons hg _ ih =>
    rw [List.append_assoc]
    exact .cons hg ih

theorem glyphs_units (c : Char) : Glyphs (Write.units c) := by
  have hvalid : c.toNat < 0xd800 ∨ (0xdfff < c.toNat ∧ c.toNat < 0x110000) := c.valid
  simp only [Write.units]
  split
  · next hn => exact (glyph_unit hn).glyphs
  · exact .cons (glyph_unit (by omega)) (glyph_unit (by omega)).glyphs

theorem glyphs_char (c : Char) : Glyphs (Write.char c) := by
  unfold Write.char
  split
  · exact (Glyph.letter (by decide)).glyphs
  split
  · exact (Glyph.letter (by decide)).glyphs
  split
  · exact (Glyph.letter (by decide)).glyphs
  split
  · exact (Glyph.letter (by decide)).glyphs
  split
  · exact (Glyph.letter (by decide)).glyphs
  split
  · exact (Glyph.letter (by decide)).glyphs
  split
  · exact (Glyph.letter (by decide)).glyphs
  split
  · next hquote hback _ _ _ _ _ hshows =>
    rw [Bool.and_eq_true, decide_eq_true_eq, decide_eq_true_eq] at hshows
    exact (Glyph.plain hshows.1 hquote hback).glyphs
  · exact glyphs_units c

theorem isString_string (s : String) : IsString (Write.string s) := by
  have hglyphs : ∀ cs : List Char, Glyphs (cs.flatMap Write.char) := by
    intro cs
    induction cs with
    | nil => exact .nil
    | cons c cs ih => exact (glyphs_char c).append ih
  exact .quoted (hglyphs s.toList)

theorem isPower_power (e : Option ℤ) : IsPower (power e) := by
  cases e with
  | none => exact .none
  | some e =>
    obtain ⟨ds, htext, hne, hds, -⟩ := FloatText.toList_exponent e
    rw [power, htext, ← List.singleton_append (x := if e < 0 then '-' else '+')]
    refine .some (.inl rfl) ?_ hne hds
    split
    · exact .inr (.inr rfl)
    · exact .inr (.inl rfl)

theorem Spells.isNumber {d : Data} (h : Spells s d) : IsNumber s := by
  obtain ⟨negative, whole, part, e, rfl, hw, hp, -⟩ := h
  exact .parts hw hp (isPower_power e)

/-- No blanks are written. -/
theorem Derives.bare (h : Derives .value s) : Derives .element s := by
  have hnone : Blank [] := nofun
  simpa using Derives.element hnone h hnone

theorem derives_member (k : String) (h : Derives .value s) : Derives .member (Write.string k ++ ':' :: s) := by
  have hnone : Blank [] := nofun
  simpa using Derives.member hnone (isString_string k) hnone h.bare

mutual

/-- What is written of a value without NaN and infinities derives from the grammar. -/
theorem derives_value (d : Data) (hd : ∀ x ∈ d.reals, x.isFinite = true) : Derives .value (Write.value d) := by
  cases d with
  | null | date => exact .word (by decide)
  | bool b => cases b <;> exact .word (by decide)
  | int i => exact .number (spells_toString i).isNumber
  | real x => exact .number (spells_floatText Write.words (hd x List.mem_cons_self)).isNumber
  | str s => exact .string (isString_string s)
  | list items | tuple items =>
    by_cases hne : items = []
    · subst hne
      exact .emptyArray nofun
    · exact .array (derives_values items hne hd)
  | map entries => exact .structured (derives_map entries hd)

theorem derives_map (entries : List (String × Data)) (hd : ∀ x ∈ Data.realsOfEntries entries, x.isFinite = true) :
    Derives .object (Write.value (.map entries)) := by
  by_cases hne : entries = []
  · subst hne
    exact .emptyObject nofun
  · exact .object (derives_members entries hne hd)

theorem derives_values (items : List Data) (hne : items ≠ [])
    (hd : ∀ x ∈ Data.realsOfItems items, x.isFinite = true) :
    Derives .elements (Write.commas (Write.values items)) := by
  cases items with
  | nil => exact absurd rfl hne
  | cons d ds =>
    have hhead := derives_value d fun x hx => hd x (List.mem_append_left _ hx)
    by_cases hds : ds = []
    · subst hds
      exact .lastElement hhead.bare
    · rw [commas_values d hds]
      exact .nextElement hhead.bare (derives_values ds hds fun x hx => hd x (List.mem_append_right _ hx))

theorem derives_members (entries : List (String × Data)) (hne : entries ≠ [])
    (hd : ∀ x ∈ Data.realsOfEntries entries, x.isFinite = true) :
    Derives .members (Write.commas (Write.members entries)) := by
  cases entries with
  | nil => exact absurd rfl hne
  | cons e es =>
    cases e with
    | mk k d =>
      have hhead := derives_value d fun x hx => hd x (List.mem_append_left _ hx)
      by_cases hes : es = []
      · subst hes
        exact .lastMember (derives_member k hhead)
      · rw [commas_members k d hes]
        exact .nextMember (derives_member k hhead)
          (derives_members es hes fun x hx => hd x (List.mem_append_right _ hx))

end

/-- The words for values without digits are met outside strings. -/
theorem scan_real {x : Float} (hx : ¬x.isFinite = true) : scan .outside (floatText Write.words x).toList = none := by
  change ¬(Binary64.unpack x).isFinite = true at hx
  unfold floatText
  cases h : Binary64.unpack x with
  | notANumber => rfl
  | infinity s => cases s <;> rfl
  | zero s => exact absurd (by rw [h]; rfl) hx
  | finite s m e hm => exact absurd (by rw [h]; rfl) hx

theorem scan_append_of_none (t : List Char) (h : scan .outside s = none) : scan .outside (s ++ t) = none := by
  rw [scan_append, h, Option.bind_none]

theorem Quiet.scan_append (h : Quiet s) (t : List Char) : scan .outside (s ++ t) = scan .outside t := by
  rw [Json.scan_append, h, Option.bind_some]

theorem scan_cons_of_calm (hc : Calm c) (s : List Char) : scan .outside (c :: s) = scan .outside s :=
  (quiet_of_calm (s := [c]) (by simpa using hc)).scan_append s

-- The first value that is not finite is met where the values before it, which derive from the grammar, have ended.
mutual

theorem scan_value (d : Data) (hd : ¬∀ x ∈ d.reals, x.isFinite = true) : scan .outside (Write.value d) = none := by
  cases d with
  | null | date | bool b | int i | str s => exact absurd nofun hd
  | real x => exact scan_real fun hx => hd (by simpa [Data.reals] using hx)
  | list items | tuple items =>
    show scan .outside ('[' :: Write.commas (Write.values items) ++ [']']) = none
    rw [List.cons_append, scan_cons_of_calm (by decide)]
    exact scan_append_of_none _ (scan_values items hd)
  | map entries =>
    show scan .outside ('\x7b' :: Write.commas (Write.members entries) ++ ['\x7d']) = none
    rw [List.cons_append, scan_cons_of_calm (by decide)]
    exact scan_append_of_none _ (scan_members entries hd)

theorem scan_values (items : List Data) (hd : ¬∀ x ∈ Data.realsOfItems items, x.isFinite = true) :
    scan .outside (Write.commas (Write.values items)) = none := by
  cases items with
  | nil => exact absurd nofun hd
  | cons d ds =>
    have hor : (¬∀ x ∈ d.reals, x.isFinite = true) ∨
        ((∀ x ∈ d.reals, x.isFinite = true) ∧ ¬∀ x ∈ Data.realsOfItems ds, x.isFinite = true) := by
      rw [Data.realsOfItems, List.forall_mem_append] at hd
      tauto
    by_cases hds : ds = []
    · subst hds
      exact scan_value d (hor.elim id fun h => absurd nofun h.2)
    · rw [commas_values d hds]
      rcases hor with h | ⟨hfin, h⟩
      · exact scan_append_of_none _ (scan_value d h)
      · rw [(derives_value d hfin).quiet.scan_append, scan_cons_of_calm (by decide)]
        exact scan_values ds h

theorem scan_members (entries : List (String × Data))
    (hd : ¬∀ x ∈ Data.realsOfEntries entries, x.isFinite = true) :
    scan .outside (Write.commas (Write.members entries)) = none := by
  cases entries with
  | nil => exact absurd nofun hd
  | cons e es =>
    cases e with
    | mk k d =>
      have hkey : ∀ t, scan .outside (Write.string k ++ ':' :: t) = scan .outside t := by
        intro t
        rw [(isString_string k).quiet.scan_append, scan_cons_of_calm (by decide)]
      have hor : (¬∀ x ∈ d.reals, x.isFinite = true) ∨
          ((∀ x ∈ d.reals, x.isFinite = true) ∧ ¬∀ x ∈ Data.realsOfEntries es, x.isFinite = true) := by
        rw [Data.realsOfEntries, List.forall_mem_append] at hd
        tauto
      by_cases hes : es = []
      · subst hes
        show scan .outside (Write.string k ++ ':' :: Write.value d) = none
        rw [hkey]
        exact scan_value d (hor.elim id fun h => absurd nofun h.2)
      · rw [commas_members k d hes, List.append_assoc, List.cons_append, hkey]
        rcases hor with h | ⟨hfin, h⟩
        · exact scan_append_of_none _ (scan_value d h)
        · rw [(derives_value d hfin).quiet.scan_append, scan_cons_of_calm (by decide)]
          exact scan_members es h

end

theorem not_derives_of_scan {n : Symbol} (h : scan .outside s = none) : ¬Derives n s := fun hs =>
  nomatch h.symm.trans hs.quiet

/-- What is written of a value derives from the grammar exactly if all its floats are finite. -/
theorem derives_write_iff (d : Data) : Derives .element (Write.value d) ↔ ∀ x ∈ d.reals, x.isFinite = true := by
  constructor
  · intro h
    by_contra hd
    exact not_derives_of_scan (scan_value d hd) h
  · exact fun hd => (derives_value d hd).bare

theorem derives_map_iff (entries : List (String × Data)) :
    Derives .object (Write.value (.map entries)) ↔ ∀ x ∈ Data.realsOfEntries entries, x.isFinite = true := by
  constructor
  · intro h
    by_contra hd
    exact not_derives_of_scan (scan_value (.map entries) hd) h
  · exact derives_map entries

end

end InertialRelay.Text.Json
