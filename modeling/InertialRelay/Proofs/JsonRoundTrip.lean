import InertialRelay.Proofs.JsonStrings

/-!
# JSON, written and read back

What `write` makes of a value without NaN and infinities reads as the value, with its tuples as lists
(`Json.read?_write`). The text has nothing but printable ASCII (`Json.shows_value`), so a line feed never comes
from it.
-/

namespace InertialRelay

namespace Data

mutual

/-- A value as JSON has it: lists for tuples, and nothing for a date. -/
def listed : Data → Data
  | .null | .date => .null
  | .bool b => .bool b
  | .int n => .int n
  | .real x => .real x
  | .str s => .str s
  | .list items | .tuple items => .list (listedItems items)
  | .map entries => .map (listedEntries entries)

def listedItems : List Data → List Data
  | [] => []
  | d :: rest => d.listed :: listedItems rest

def listedEntries : List (String × Data) → List (String × Data)
  | [] => []
  | (k, d) :: rest => (k, d.listed) :: listedEntries rest

end

mutual

/-- The floats of a value. -/
def reals : Data → List Float
  | .null | .date | .bool _ | .int _ | .str _ => []
  | .real x => [x]
  | .list items | .tuple items => realsOfItems items
  | .map entries => realsOfEntries entries

def realsOfItems : List Data → List Float
  | [] => []
  | d :: rest => d.reals ++ realsOfItems rest

def realsOfEntries : List (String × Data) → List Float
  | [] => []
  | (_, d) :: rest => d.reals ++ realsOfEntries rest

end

end Data

namespace Text.Json

open Read

/-! ### Values -/

theorem skip_of_head {c : Char} {t : List Char} (h : isSpace c = false) : skip (c :: t) = c :: t := by
  simp [skip, h]

theorem stops_cons {c : Char} {t : List Char} (h : c = ',' ∨ c = ']' ∨ c = '\x7d') : Stops (c :: t) := by
  rintro d ⟨⟩
  rcases h with rfl | rfl | rfl <;> decide

theorem number_head {c : Char} (h : c = '-' ∨ c.isDigit = true) : isSpace c = false ∧ c ≠ ']' := by
  rcases h with rfl | h
  · decide
  · have hne : ∀ x : Char, x.isDigit = false → c ≠ x := by
      rintro x hx rfl
      exact Bool.false_ne_true (hx.symm.trans h)
    simp [isSpace, hne ' ' rfl, hne '\t' rfl, hne '\n' rfl, hne '\r' rfl, hne ']' rfl]

/-- A value begins with no blank, and not with the end of an array. -/
theorem value_head {d : Data} (hd : ∀ x ∈ d.reals, x.isFinite = true) :
    ∃ c t, Write.value d = c :: t ∧ isSpace c = false ∧ c ≠ ']' := by
  cases d with
  | null | date => exact ⟨'n', _, rfl, by decide⟩
  | bool b =>
    cases b with
    | true => exact ⟨'t', _, rfl, by decide⟩
    | false => exact ⟨'f', _, rfl, by decide⟩
  | int n =>
    obtain ⟨c, t, ht, hc⟩ := (spells_toString n).head
    exact ⟨c, t, ht, number_head hc⟩
  | real x =>
    obtain ⟨c, t, ht, hc⟩ := (spells_floatText Write.words (hd x List.mem_cons_self)).head
    exact ⟨c, t, ht, number_head hc⟩
  | str s => exact ⟨'"', _, rfl, by decide⟩
  | list items | tuple items => exact ⟨'[', _, rfl, by decide⟩
  | map entries => exact ⟨'\x7b', _, rfl, by decide⟩

theorem value?_spells {s rest : List Char} {d : Data} (h : Spells s d) (hr : Stops rest) (fuel : ℕ) :
    value? (fuel + 1) (s ++ rest) = some (d, rest) := by
  obtain ⟨c, t, ht, hc⟩ := h.head
  rw [← h.number? hr, ht, List.cons_append, value?, skip_of_head (number_head hc).1]
  have hne : ∀ x : Char, x ≠ '-' → x.isDigit = false → c ≠ x := by
    rintro x hminus hdigit rfl
    rcases hc with hc | hc
    · exact hminus hc
    · exact Bool.false_ne_true (hdigit.symm.trans hc)
  split
  · next h => exact absurd (List.cons.inj h).1 (hne '"' (by decide) rfl)
  · next h => exact absurd (List.cons.inj h).1 (hne '[' (by decide) rfl)
  · next h => exact absurd (List.cons.inj h).1 (hne '\x7b' (by decide) rfl)
  · next h => exact absurd (List.cons.inj h).1 (hne 't' (by decide) rfl)
  · next h => exact absurd (List.cons.inj h).1 (hne 'f' (by decide) rfl)
  · next h => exact absurd (List.cons.inj h).1 (hne 'n' (by decide) rfl)
  · rfl

theorem value?_array {c : Char} (hc : isSpace c = false ∧ c ≠ ']') (fuel : ℕ) (t : List Char) :
    value? (fuel + 1) ('[' :: c :: t) = (items? fuel (c :: t)).map fun r => (.list r.1, r.2) := by
  have hopen : skip ('[' :: c :: t) = '[' :: c :: t := skip_of_head (by decide)
  simp only [value?, hopen, skip_of_head hc.1]
  split
  · next h => exact absurd (List.cons.inj h).1 hc.2
  · cases items? fuel (c :: t) <;> rfl

theorem value?_object (fuel : ℕ) (t : List Char) :
    value? (fuel + 1) ('\x7b' :: '"' :: t) = (members? fuel ('"' :: t)).map fun r => (.map r.1, r.2) := by
  show (members? fuel ('"' :: t)).bind _ = _
  cases members? fuel ('"' :: t) <;> rfl

theorem items?_last {fuel : ℕ} {s rest : List Char} {d : Data} (h : value? fuel s = some (d, ']' :: rest)) :
    items? (fuel + 1) s = some ([d], rest) := by
  rw [items?, h]
  rfl

theorem items?_next {fuel : ℕ} {s rest t : List Char} {d : Data} {ds : List Data}
    (h : value? fuel s = some (d, ',' :: t)) (hrest : items? fuel t = some (ds, rest)) :
    items? (fuel + 1) s = some (d :: ds, rest) := by
  rw [items?, h]
  show (items? fuel t).bind _ = _
  rw [hrest]
  rfl

/-- The key of a member is taken off with its colon; what follows the value decides how the object goes on. -/
theorem members?_key (fuel : ℕ) (k : String) (s : List Char) :
    members? (fuel + 1) (Write.string k ++ ':' :: s) = (do
      let (d, rest) ← value? fuel s
      match skip rest with
      | ',' :: rest =>
        let (ms, rest) ← members? fuel rest
        return ((k, d) :: ms, rest)
      | '\x7d' :: rest => return ([(k, d)], rest)
      | _ => none) := by
  obtain ⟨t, ht, hk⟩ := string?_string k (':' :: s)
  rw [ht, members?, skip_of_head (by decide)]
  show (string? (t.length + 1) t).bind _ = _
  rw [hk]
  show (value? fuel s).bind _ = _
  rw [String.ofList_toList]
  rfl

theorem members?_last {fuel : ℕ} {s rest : List Char} {k : String} {d : Data}
    (h : value? fuel s = some (d, '\x7d' :: rest)) :
    members? (fuel + 1) (Write.string k ++ ':' :: s) = some ([(k, d)], rest) := by
  rw [members?_key, h]
  rfl

theorem members?_next {fuel : ℕ} {s rest t : List Char} {k : String} {d : Data} {ds : List (String × Data)}
    (h : value? fuel s = some (d, ',' :: t)) (hrest : members? fuel t = some (ds, rest)) :
    members? (fuel + 1) (Write.string k ++ ':' :: s) = some ((k, d) :: ds, rest) := by
  rw [members?_key, h]
  show (members? fuel t).bind _ = _
  rw [hrest]
  rfl

theorem commas_values (d : Data) {ds : List Data} (hne : ds ≠ []) :
    Write.commas (Write.values (d :: ds)) = Write.value d ++ ',' :: Write.commas (Write.values ds) := by
  obtain ⟨e, es, rfl⟩ := List.exists_cons_of_ne_nil hne
  rfl

theorem commas_members (k : String) (d : Data) {es : List (String × Data)} (hne : es ≠ []) :
    Write.commas (Write.members ((k, d) :: es)) =
      Write.string k ++ ':' :: Write.value d ++ ',' :: Write.commas (Write.members es) := by
  obtain ⟨e, es, rfl⟩ := List.exists_cons_of_ne_nil hne
  rfl

theorem values_head {items : List Data} (hne : items ≠ [])
    (hd : ∀ x ∈ Data.realsOfItems items, x.isFinite = true) :
    ∃ c t, Write.commas (Write.values items) = c :: t ∧ isSpace c = false ∧ c ≠ ']' := by
  obtain ⟨d, ds, rfl⟩ := List.exists_cons_of_ne_nil hne
  obtain ⟨c, t, ht, hc⟩ := value_head fun x hx => hd x (List.mem_append_left _ hx)
  by_cases hds : ds = []
  · subst hds
    exact ⟨c, t, ht, hc⟩
  · refine ⟨c, t ++ ',' :: Write.commas (Write.values ds), ?_, hc⟩
    rw [commas_values d hds, ht]
    rfl

theorem members_head {entries : List (String × Data)} (hne : entries ≠ []) :
    ∃ t, Write.commas (Write.members entries) = '"' :: t := by
  obtain ⟨⟨k, d⟩, es, rfl⟩ := List.exists_cons_of_ne_nil hne
  cases es with
  | nil => exact ⟨_, rfl⟩
  | cons e es => exact ⟨_, rfl⟩

-- Along the value. A value spends one unit of fuel, an item or a member another, and each of them has a
-- character of its own to pay with: a bracket, a comma, or the first one of a scalar.
mutual

/-- What a value is written as is read back, whatever follows that no number could go on with. -/
theorem value?_value (d : Data) (hd : ∀ x ∈ d.reals, x.isFinite = true) {rest : List Char} (hr : Stops rest)
    {fuel : ℕ} (hf : (Write.value d).length ≤ fuel) :
    value? fuel (Write.value d ++ rest) = some (d.listed, rest) := by
  obtain ⟨n, rfl⟩ : ∃ n, fuel = n + 1 := by
    obtain ⟨c, t, ht, -⟩ := value_head hd
    rw [ht, List.length_cons] at hf
    exact ⟨fuel - 1, by omega⟩
  cases d with
  | null | date => rfl
  | bool b => cases b <;> rfl
  | int i => exact value?_spells (spells_toString i) hr n
  | real x => exact value?_spells (spells_floatText Write.words (hd x List.mem_cons_self)) hr n
  | str s =>
    obtain ⟨t, ht, hs⟩ := string?_string s rest
    show value? (n + 1) (Write.string s ++ rest) = _
    rw [ht, value?, skip_of_head (by decide)]
    show (string? (t.length + 1) t).bind _ = _
    rw [hs]
    simp [Data.listed]
  | list items | tuple items =>
    change ('[' :: Write.commas (Write.values items) ++ [']']).length ≤ n + 1 at hf
    show value? (n + 1) ('[' :: Write.commas (Write.values items) ++ [']'] ++ rest) =
      some (.list (Data.listedItems items), rest)
    simp only [List.length_append, List.length_cons] at hf
    rw [List.append_assoc, List.cons_append, List.singleton_append]
    by_cases hne : items = []
    · subst hne
      rfl
    · have hitems := items?_values items hne hd rest (show _ < n by omega)
      obtain ⟨c, t, ht, hc⟩ := values_head hne hd
      rw [ht, List.cons_append] at hitems ⊢
      rw [value?_array hc, hitems]
      rfl
  | map entries =>
    change ('\x7b' :: Write.commas (Write.members entries) ++ ['\x7d']).length ≤ n + 1 at hf
    show value? (n + 1) ('\x7b' :: Write.commas (Write.members entries) ++ ['\x7d'] ++ rest) =
      some (.map (Data.listedEntries entries), rest)
    simp only [List.length_append, List.length_cons] at hf
    rw [List.append_assoc, List.cons_append, List.singleton_append]
    by_cases hne : entries = []
    · subst hne
      rfl
    · have hmembers := members?_members entries hne hd rest (show _ < n by omega)
      obtain ⟨t, ht⟩ := members_head hne
      rw [ht, List.cons_append] at hmembers ⊢
      rw [value?_object, hmembers]
      rfl

theorem items?_values (items : List Data) (hne : items ≠ [])
    (hd : ∀ x ∈ Data.realsOfItems items, x.isFinite = true) (rest : List Char) {fuel : ℕ}
    (hf : (Write.commas (Write.values items)).length < fuel) :
    items? fuel (Write.commas (Write.values items) ++ ']' :: rest) = some (Data.listedItems items, rest) := by
  obtain ⟨n, rfl⟩ : ∃ n, fuel = n + 1 := ⟨fuel - 1, by omega⟩
  cases items with
  | nil => exact absurd rfl hne
  | cons d ds =>
    have hhead : ∀ x ∈ d.reals, x.isFinite = true := fun x hx => hd x (List.mem_append_left _ hx)
    have htail : ∀ x ∈ Data.realsOfItems ds, x.isFinite = true := fun x hx =>
      hd x (List.mem_append_right _ hx)
    by_cases hds : ds = []
    · subst hds
      exact items?_last (value?_value d hhead (stops_cons (by simp)) (Nat.le_of_lt_succ hf))
    · rw [commas_values d hds, List.length_append, List.length_cons] at hf
      rw [commas_values d hds, List.append_assoc]
      exact items?_next (value?_value d hhead (stops_cons (by simp)) (by omega))
        (items?_values ds hds htail rest (by omega))

theorem members?_members (entries : List (String × Data)) (hne : entries ≠ [])
    (hd : ∀ x ∈ Data.realsOfEntries entries, x.isFinite = true) (rest : List Char) {fuel : ℕ}
    (hf : (Write.commas (Write.members entries)).length < fuel) :
    members? fuel (Write.commas (Write.members entries) ++ '\x7d' :: rest) =
      some (Data.listedEntries entries, rest) := by
  obtain ⟨n, rfl⟩ : ∃ n, fuel = n + 1 := ⟨fuel - 1, by omega⟩
  cases entries with
  | nil => exact absurd rfl hne
  | cons e es =>
    cases e with
    | mk k d =>
      have hhead : ∀ x ∈ d.reals, x.isFinite = true := fun x hx => hd x (List.mem_append_left _ hx)
      have htail : ∀ x ∈ Data.realsOfEntries es, x.isFinite = true := fun x hx =>
        hd x (List.mem_append_right _ hx)
      by_cases hes : es = []
      · subst hes
        have htext : Write.commas (Write.members [(k, d)]) = Write.string k ++ ':' :: Write.value d := rfl
        rw [htext, List.length_append, List.length_cons] at hf
        rw [htext, List.append_assoc]
        exact members?_last (value?_value d hhead (stops_cons (by simp)) (by omega))
      · rw [commas_members k d hes, List.length_append, List.length_append, List.length_cons,
          List.length_cons] at hf
        rw [commas_members k d hes, List.append_assoc, List.append_assoc]
        exact members?_next (value?_value d hhead (stops_cons (by simp)) (by omega))
          (members?_members es hes htail rest (by omega))

end

/-! ### Whole texts -/

theorem read?_write {d : Data} (hd : ∀ x ∈ d.reals, x.isFinite = true) : read? (write d) = some d.listed := by
  have hend : Stops [] := fun _ h => nomatch h
  have hvalue := value?_value d hd hend (Nat.le_succ _)
  rw [List.append_nil] at hvalue
  rw [read?, write, String.toList_ofList, String.length_ofList, hvalue]
  rfl

theorem shows_of_all {s : List Char} (h : (s.all fun c => decide (Shows c)) = true) : ∀ c ∈ s, Shows c := by
  simpa using h

theorem shows_real (x : Float) : ∀ c ∈ (floatText Write.words x).toList, Shows c := by
  by_cases hx : x.isFinite = true
  · exact (spells_floatText Write.words hx).shows
  · change ¬(Binary64.unpack x).isFinite = true at hx
    unfold floatText
    cases h : Binary64.unpack x with
    | notANumber => exact shows_of_all rfl
    | infinity s => cases s <;> exact shows_of_all rfl
    | zero s => exact absurd (by rw [h]; rfl) hx
    | finite s m e hm => exact absurd (by rw [h]; rfl) hx

theorem shows_append {s t : List Char} (hs : ∀ c ∈ s, Shows c) (ht : ∀ c ∈ t, Shows c) :
    ∀ c ∈ s ++ t, Shows c := fun c hc => (List.mem_append.1 hc).elim (hs c) (ht c)

theorem shows_cons {c : Char} {s : List Char} (hc : Shows c) (hs : ∀ d ∈ s, Shows d) : ∀ d ∈ c :: s, Shows d :=
  List.forall_mem_cons.2 ⟨hc, hs⟩

mutual

theorem shows_value (d : Data) : ∀ c ∈ Write.value d, Shows c := by
  cases d with
  | null | date => exact shows_of_all rfl
  | bool b => cases b <;> exact shows_of_all rfl
  | int i => exact (spells_toString i).shows
  | real x => exact shows_real x
  | str s => exact shows_string s
  | list items | tuple items =>
    exact shows_append (shows_cons (by decide) (shows_values items)) (shows_of_all rfl)
  | map entries => exact shows_append (shows_cons (by decide) (shows_members entries)) (shows_of_all rfl)

theorem shows_values (items : List Data) : ∀ c ∈ Write.commas (Write.values items), Shows c := by
  cases items with
  | nil => exact nofun
  | cons d ds =>
    by_cases hds : ds = []
    · subst hds
      exact shows_value d
    · rw [commas_values d hds]
      exact shows_append (shows_value d) (shows_cons (by decide) (shows_values ds))

theorem shows_members (entries : List (String × Data)) :
    ∀ c ∈ Write.commas (Write.members entries), Shows c := by
  cases entries with
  | nil => exact nofun
  | cons e es =>
    have hentry : ∀ c ∈ Write.string e.1 ++ ':' :: Write.value e.2, Shows c :=
      shows_append (shows_string e.1) (shows_cons (by decide) (shows_value e.2))
    by_cases hes : es = []
    · subst hes
      exact hentry
    · rw [show e = (e.1, e.2) from rfl, commas_members e.1 e.2 hes]
      exact shows_append hentry (shows_cons (by decide) (shows_members es))

end

end Text.Json

end InertialRelay
