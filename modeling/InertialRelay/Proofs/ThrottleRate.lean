import InertialRelay.Proofs.TimeoutLaw
import Mathlib.Algebra.Order.Floor.Ring
import Mathlib.Data.Fin.VecNotation
import Mathlib.Data.Rat.Floor
import Mathlib.Order.Fin.Basic
import Mathlib.Tactic.Linarith

/-!
# The rate of a throttle

On a clock whose readings are exact numbers, a throttle lets a caller through at the first reading and then at each
one that is a period or more after the last reading at which it did (`Throttle.answers_at_rate`). What it answered is
followed as a log of readings with their answers. `Throttle.Kept` says that the answers of a log are those of a
throttle; everything else is read off the log.
-/

namespace InertialRelay
namespace Throttle

/-- Before the `i`-th call a caller was last let through at the reading `l`. -/
def LastThrough {τ : Type} (log : List (τ × Bool)) (i : ℕ) (l : τ) : Prop :=
  ∃ j < i, log[j]? = some (l, true) ∧ ∀ k, j < k → k < i → ∀ now, log[k]? ≠ some (now, true)

section
variable {τ : Type} {log : List (τ × Bool)} {l : τ} {n : ℕ} {t : Fin n → τ} {answer : Fin n → Bool}

theorem LastThrough.cons {i : ℕ} (h : LastThrough log i l) (x : τ × Bool) : LastThrough (x :: log) (i + 1) l := by
  obtain ⟨j, hj, hl, hk⟩ := h
  refine ⟨j + 1, by omega, hl, fun k hjk hki => ?_⟩
  obtain ⟨k, rfl⟩ := Nat.exists_eq_succ_of_ne_zero (Nat.ne_zero_of_lt hjk)
  exact hk k (by omega) (by omega)

theorem exists_answer (h : log.map Prod.fst = List.ofFn t) :
    ∃ answer : Fin n → Bool, log = List.ofFn fun i => (t i, answer i) := by
  obtain rfl : n = log.length := by simpa using (congrArg List.length h).symm
  refine ⟨fun i => log[i].2, List.ext_getElem (by simp) fun i hi _ => ?_⟩
  have hfst : log[i].1 = t ⟨i, hi⟩ := by
    rw [← List.getElem_map Prod.fst (h := by simpa using hi)]
    simp [h]
  simp [← hfst]

theorem getElem?_calls (i : Fin n) : (List.ofFn fun i => (t i, answer i))[(i : ℕ)]? = some (t i, answer i) := by
  rw [List.getElem?_ofFn, dif_pos i.isLt]

theorem LastThrough.exists_fin {i : Fin n} (h : LastThrough (List.ofFn fun i => (t i, answer i)) i l) :
    ∃ j < i, answer j = true ∧ (∀ k, j < k → k < i → answer k = false) ∧ t j = l := by
  obtain ⟨j, hj, hl, hk⟩ := h
  have hjn : j < n := hj.trans i.isLt
  obtain ⟨hl, ha⟩ : t ⟨j, hjn⟩ = l ∧ answer ⟨j, hjn⟩ = true := by simpa [hjn] using hl
  refine ⟨⟨j, hjn⟩, hj, ha, fun k hjk hki => ?_, hl⟩
  simpa using hk k hjk hki (t k)

end

section
variable {τ : Type} [AddCommGroup τ] [LinearOrder τ] {period l now : τ} {last : Option τ} {log : List (τ × Bool)}

/-- Answers that keep to a period, after a reading at which a caller was last let through. -/
inductive Kept (period : τ) : Option τ → List (τ × Bool) → Prop
  | nil (last : Option τ) : Kept period last []
  | through {last : Option τ} {now : τ} {log : List (τ × Bool)} (h : ∀ l ∈ last, period ≤ now - l)
      (hlog : Kept period (some now) log) : Kept period last ((now, true) :: log)
  | held {l now : τ} {log : List (τ × Bool)} (h : now - l < period) (hlog : Kept period (some l) log) :
      Kept period (some l) ((now, false) :: log)

theorem ready_cases (t : Throttle τ) (now : τ) :
    (t.ready now = .ok (true, { t with last := some now }) ∧ ∀ l ∈ t.last, t.period ≤ now - l) ∨
    (t.ready now = .ok (false, t) ∧ ∃ l, t.last = some l ∧ now - l < t.period) := by
  obtain ⟨period, last⟩ := t
  cases last with
  | none => exact .inl ⟨rfl, nofun⟩
  | some l =>
    rcases lt_or_ge (now - l) period with h | h
    · refine .inr ⟨?_, l, rfl, h⟩
      simp [ready, Timescale.between, Timescale.less, bind, Except.bind, pure, Except.pure, h]
    · refine .inl ⟨?_, by simpa using h⟩
      simp [ready, Timescale.between, Timescale.less, bind, Except.bind, pure, Except.pure, not_lt_of_ge h]

theorem answers_kept (t : Throttle τ) (times : List τ) :
    ∃ log, log.map Prod.fst = times ∧ t.answers times = .ok (log.map Prod.snd) ∧ Kept t.period t.last log := by
  induction times generalizing t with
  | nil => exact ⟨[], rfl, rfl, .nil _⟩
  | cons now times ih =>
    rcases t.ready_cases now with ⟨hr, h⟩ | ⟨hr, l, hl, h⟩
    · obtain ⟨log, rfl, ha, hk⟩ := ih { t with last := some now }
      refine ⟨(now, true) :: log, rfl, ?_, .through h hk⟩
      simp [answers, hr, ha, bind, Except.bind, pure, Except.pure]
    · obtain ⟨log, rfl, ha, hk⟩ := ih t
      rw [hl] at hk
      refine ⟨(now, false) :: log, rfl, ?_, hl ▸ .held h hk⟩
      simp [answers, hr, ha, bind, Except.bind, pure, Except.pure]

/-- A call is judged by the last reading at which a caller was let through, within the log or before it. -/
theorem Kept.judged (h : Kept period last log) {i : ℕ} {answer : Bool} (hi : log[i]? = some (now, answer)) :
    (∃ l, LastThrough log i l ∧ (answer = true ↔ period ≤ now - l)) ∨
    (∀ k < i, ∀ past, log[k]? ≠ some (past, true)) ∧ (answer = true ↔ ∀ l ∈ last, period ≤ now - l) := by
  induction h generalizing i with
  | nil last => cases hi
  | @through last first log h hlog ih =>
    cases i with
    | zero =>
      obtain ⟨rfl, rfl⟩ : first = now ∧ true = answer := by simpa using hi
      exact .inr ⟨nofun, iff_of_true rfl h⟩
    | succ i =>
      rcases ih hi with ⟨l, hl, ha⟩ | ⟨hnone, ha⟩
      · exact .inl ⟨l, hl.cons _, ha⟩
      · refine .inl ⟨first, ⟨0, by omega, rfl, fun k hk hki => ?_⟩, by simpa using ha⟩
        obtain ⟨k, rfl⟩ := Nat.exists_eq_succ_of_ne_zero (Nat.ne_zero_of_lt hk)
        exact hnone k (by omega)
  | @held l first log h hlog ih =>
    cases i with
    | zero =>
      obtain ⟨rfl, rfl⟩ : first = now ∧ false = answer := by simpa using hi
      exact .inr ⟨nofun, by simpa using h⟩
    | succ i =>
      rcases ih hi with ⟨l, hl, ha⟩ | ⟨hnone, ha⟩
      · exact .inl ⟨l, hl.cons _, ha⟩
      · refine .inr ⟨fun k hki past => ?_, ha⟩
        cases k with
        | zero => simp
        | succ k => exact hnone k (by omega) past

/-! ### Calls of a new throttle by their number -/

section
variable {n : ℕ} {t : Fin (n + 1) → τ} {answer : Fin (n + 1) → Bool}

theorem Kept.first (h : Kept period none (List.ofFn fun i => (t i, answer i))) : answer 0 = true := by
  rcases h.judged (getElem?_calls 0) with ⟨l, ⟨j, hj, -⟩, -⟩ | ⟨-, ha⟩
  · exact absurd hj (Nat.not_lt_zero j)
  · exact ha.2 nofun

theorem Kept.latest (h : Kept period none (List.ofFn fun i => (t i, answer i))) {i : Fin (n + 1)} (hi : 0 < i) :
    ∃ j < i, answer j = true ∧ (∀ k, j < k → k < i → answer k = false) ∧
      (answer i = true ↔ period ≤ t i - t j) := by
  rcases h.judged (getElem?_calls i) with ⟨l, hl, ha⟩ | ⟨hnone, -⟩
  · obtain ⟨j, hj, hat, hbetween, rfl⟩ := hl.exists_fin
    exact ⟨j, hj, hat, hbetween, ha⟩
  · exact absurd (h.first ▸ getElem?_calls 0) (hnone 0 hi (t 0))

theorem Kept.held_near (h : Kept period none (List.ofFn fun i => (t i, answer i))) {i : Fin (n + 1)}
    (hi : answer i = false) : ∃ j < i, answer j = true ∧ t i - t j < period := by
  have hpos : 0 < i := by
    refine Fin.pos_of_ne_zero fun hzero => ?_
    simp [hzero, h.first] at hi
  obtain ⟨j, hj, haj, -, ha⟩ := h.latest hpos
  refine ⟨j, hj, haj, ?_⟩
  simpa [hi] using ha

variable [IsOrderedAddMonoid τ]

theorem Kept.apart (h : Kept period none (List.ofFn fun i => (t i, answer i))) (ht : Monotone t)
    {i j : Fin (n + 1)} (hij : i < j) (hi : answer i = true) (hj : answer j = true) : period ≤ t j - t i := by
  obtain ⟨m, -, -, hbetween, ha⟩ := h.latest (lt_of_le_of_lt (Fin.zero_le i) hij)
  -- the last one before `j` is `i` or comes after it
  have him : i ≤ m := by
    by_contra hmi
    have := hbetween i (not_le.1 hmi) hij
    simp [hi] at this
  exact (ha.1 hj).trans (sub_le_sub_left (ht him) (t j))

end

end

section
variable {K : Type} [Field K] [LinearOrder K] [IsStrictOrderedRing K] {period l u : K} {log : List (K × Bool)}

/-- Every caller who is let through uses up a period of the time until `u`. -/
theorem Kept.count_mul_le (h : Kept period (some l) log) (hl : l ≤ u) (hu : ∀ x ∈ log, x.1 ≤ u) :
    ((log.map Prod.snd).count true : K) * period ≤ u - l := by
  generalize hlast : some l = last at h
  induction h generalizing l with
  | nil last => simpa using hl
  | @through last now log h hlog ih =>
    subst hlast
    have hrest := ih (hu (now, true) (by simp)) (fun x hx => hu x (by simp [hx])) rfl
    have hgap := h l rfl
    simp only [List.map_cons, List.count_cons_self, Nat.cast_add, Nat.cast_one, add_mul, one_mul]
    linarith
  | @held last now log h hlog ih =>
    obtain rfl := Option.some.inj hlast
    simpa using ih hl (fun x hx => hu x (by simp [hx])) rfl

variable [FloorRing K] {n : ℕ} {t : Fin (n + 1) → K} {answer : Fin (n + 1) → Bool}

theorem Kept.count_le (h : Kept period none (List.ofFn fun i => (t i, answer i))) (hp : 0 < period) (ht : Monotone t) :
    ((List.ofFn answer).count true : ℤ) ≤ ⌊(t (Fin.last n) - t 0) / period⌋ + 1 := by
  have hfirst := h.first
  rw [List.ofFn_succ] at h ⊢
  rw [hfirst] at h ⊢
  cases h with
  | through _ hrest =>
    have hmem : ∀ x ∈ List.ofFn fun i : Fin n => (t i.succ, answer i.succ), x.1 ≤ t (Fin.last n) := by
      simp only [List.mem_ofFn, forall_exists_index]
      rintro _ i rfl
      exact ht (Fin.le_last _)
    have hcount := hrest.count_mul_le (ht (Fin.zero_le _)) hmem
    rw [List.map_ofFn, ← le_div_iff₀ hp] at hcount
    rw [List.count_cons_self]
    push_cast
    gcongr
    exact Int.le_floor.2 (by exact_mod_cast hcount)

/-- A new throttle is asked at the readings `t 0 ≤ … ≤ t n` of an exact clock. -/
theorem answers_at_rate (hp : 0 < period) {n : ℕ} {t : Fin (n + 1) → K} (ht : Monotone t) :
    ∃ answer : Fin (n + 1) → Bool,
      ({ period } : Throttle K).answers (List.ofFn t) = .ok (List.ofFn answer) ∧
      answer 0 = true ∧
      (∀ i, 0 < i → ∃ j < i, answer j = true ∧ (∀ k, j < k → k < i → answer k = false) ∧
        (answer i = true ↔ period ≤ t i - t j)) ∧
      (∀ i j, i < j → answer i = true → answer j = true → period ≤ t j - t i) ∧
      (∀ i, answer i = false → ∃ j < i, answer j = true ∧ t i - t j < period) ∧
      ((List.ofFn answer).count true : ℤ) ≤ ⌊(t (Fin.last n) - t 0) / period⌋ + 1 := by
  obtain ⟨log, hlog, ha, hk⟩ := answers_kept ({ period } : Throttle K) (List.ofFn t)
  obtain ⟨answer, rfl⟩ := exists_answer hlog
  refine ⟨answer, ?_, hk.first, fun _ => hk.latest, fun _ _ => hk.apart ht, fun _ => hk.held_near, hk.count_le hp ht⟩
  simpa [List.map_ofFn, Function.comp_def] using ha

/-- Two of four callers come exactly one period after the last one who was let through. -/
theorem answers_at_rate_sixty :
    let t : Fin 4 → ℚ := ![0, 119 / 2, 60, 120]
    (0 : ℚ) < 60 ∧ Monotone t ∧ ∃ answer : Fin 4 → Bool,
      ({ period := 60 } : Throttle ℚ).answers (List.ofFn t) = .ok (List.ofFn answer) ∧
        ((List.ofFn answer).count true : ℤ) ≤ ⌊(t 3 - t 0) / 60⌋ + 1 := by
  intro t
  have hp : (0 : ℚ) < 60 := by norm_num
  have ht : Monotone (![0, 119 / 2, 60, 120] : Fin 4 → ℚ) := Fin.monotone_iff_le_succ.2 (by decide +kernel)
  obtain ⟨answer, ha, -, -, -, -, hcount⟩ := answers_at_rate hp ht
  exact ⟨hp, ht, answer, ha, hcount⟩

end

end Throttle
end InertialRelay
