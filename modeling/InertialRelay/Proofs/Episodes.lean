import InertialRelay.Proofs.NodeCalls
import InertialRelay.Proofs.Roster

/-!
# Runs as episodes

An episode is a call in a run: the node and its sink when the call comes, and what the call shows. A sink is
watched by one that also writes down what it is handed; nothing else is different then
(`Node.handle_observed`).

`Station.kept_episodes` is for two runs of which one lacks calls that the other has. A relation that both
kinds of call keep, those that are made in both runs and those that are left out of one, holds before every
call that the runs have in common.
-/

namespace InertialRelay

/-- A record that was handed to a sink, and the fault with which the sink refused it. -/
structure Attempt where
  output : Output
  fault : Option Fault
  deriving DecidableEq

namespace Sink
variable {σ : Type}

/-- The sink that also writes down what it is handed. -/
def observed (sink : Sink σ) : Sink (σ × List Attempt) where
  publish o s := (sink.publish o s.1).beside (s.2 ++ [⟨o, (sink.publish o s.1).fault⟩])

/-- What a sink is handed of records. -/
def attempts (sink : Sink σ) : List Output → σ → List Attempt
  | [], _ => []
  | o :: rest, s =>
    match (sink.publish o s).fault with
    | some f => [⟨o, some f⟩]
    | none => ⟨o, none⟩ :: sink.attempts rest (sink.publish o s).state

theorem observed_publish (sink : Sink σ) (o : Output) (s : σ) (seen : List Attempt) :
    sink.observed.publish o (s, seen) =
      (sink.publish o s).beside (seen ++ [⟨o, (sink.publish o s).fault⟩]) := rfl

theorem publishAll_observed (sink : Sink σ) (outputs : List Output) (s : σ) (seen : List Attempt) :
    sink.observed.publishAll outputs (s, seen) =
      (sink.publishAll outputs s).beside (seen ++ sink.attempts outputs s) := by
  unfold publishAll
  induction outputs generalizing s seen with
  | nil => simp [Reaction.untilFault, Reaction.beside, attempts]
  | cons o rest ih =>
    simp only [Reaction.untilFault, observed_publish, attempts]
    cases hf : (sink.publish o s).fault with
    | some f => simp [Reaction.beside, hf]
    | none => simp [Reaction.beside, hf, ih]

theorem attempts_of_taken {sink : Sink σ} {outputs : List Output} {s : σ}
    (h : (sink.publishAll outputs s).fault = none) : (sink.attempts outputs s).map (·.output) = outputs := by
  induction outputs generalizing s with
  | nil => rfl
  | cons o rest ih =>
    unfold publishAll Reaction.untilFault at h
    unfold attempts
    cases hf : (sink.publish o s).fault with
    | some f => simp [hf] at h
    | none =>
      simp only [hf] at h
      exact congrArg (o :: ·) (ih h)

end Sink

namespace Node
variable {σ : Type}

/-- What a call has to publish, or why there is nothing. -/
def outputs (n : Node) : Call → Except Fault (List Output)
  | .handle env m => (n.offer env m).outputs
  | .connectionChanged _ => .ok []

def records (n : Node) (c : Call) : List Output :=
  match n.outputs c with
  | .ok outputs => outputs
  | .error _ => []

theorem handle_eq_ok {sink : Sink σ} {n : Node} {s : σ} {env : Ambient} {m : Message} {count : Nat}
    (h : (n.handle sink s env m).result = .ok count) :
    ∃ outputs, (n.offer env m).outputs = .ok outputs ∧ (sink.publishAll outputs s).fault = none := by
  unfold handle at h
  cases ho : (n.offer env m).outputs with
  | error f => simp [ho] at h
  | ok outputs =>
    refine ⟨outputs, rfl, ?_⟩
    cases hf : (sink.publishAll outputs s).fault with
    | none => rfl
    | some f => simp [ho, hf] at h

theorem handle_observed (sink : Sink σ) (n : Node) (s : σ) (seen : List Attempt) (env : Ambient)
    (m : Message) :
    n.handle sink.observed (s, seen) env m =
      let h := n.handle sink s env m
      ⟨h.node, (h.sink, seen ++ sink.attempts (n.records (.handle env m)) s), h.log, h.result⟩ := by
  simp only [handle, records, outputs]
  cases ho : (n.offer env m).outputs with
  | error f => simp [Sink.attempts]
  | ok outputs =>
    simp only [Sink.publishAll_observed]
    rfl

end Node

/-- What a call shows: what it returns or raises, what its sink is handed, and the lines in the log. -/
structure Reply where
  result : Except Fault (Option Nat)
  attempts : List Attempt
  log : Log

structure Episode (σ : Type) where
  before : Station σ
  call : Node.Call
  reply : Reply

namespace Station
variable {σ : Type} {sink : Sink σ} {s t t' : Station σ} {calls : List Node.Call}

def reply (sink : Sink σ) (s : Station σ) : Node.Call → Reply
  | .handle env m =>
    let h := s.node.handle sink.observed (s.sink, []) env m
    ⟨some <$> h.result, h.sink.2, h.log⟩
  | .connectionChanged connected => ⟨.ok none, [], (s.node.connectionChanged connected).2⟩

def episode (sink : Sink σ) (s : Station σ) (c : Node.Call) : Episode σ := ⟨s, c, s.reply sink c⟩

def episodes (sink : Sink σ) (s : Station σ) : List Node.Call → List (Episode σ)
  | [] => []
  | c :: calls => s.episode sink c :: (s.call sink c).episodes sink calls

theorem reply_attempts (sink : Sink σ) (s : Station σ) (c : Node.Call) :
    (s.reply sink c).attempts = sink.attempts (s.node.records c) s.sink := by
  cases c with
  | handle env m => simp [reply, Node.handle_observed]
  | connectionChanged connected => rfl

section
variable {env : Ambient} {m : Message}

theorem attempts_of_ok {outputs : List Output} (h : (t.node.offer env m).outputs = .ok outputs) :
    (t.reply sink (.handle env m)).attempts = sink.attempts outputs t.sink := by
  rw [reply_attempts, Node.records, Node.outputs, h]

theorem attempts_of_error {f : Fault} (h : (t.node.offer env m).outputs = .error f) :
    (t.reply sink (.handle env m)).attempts = [] := by
  rw [reply_attempts, Node.records, Node.outputs, h]
  rfl

theorem result_of_error {f : Fault} (h : (t.node.offer env m).outputs = .error f) :
    (t.reply sink (.handle env m)).result = .error f := by
  rw [reply, Node.handle_observed, Node.handle_result_of_error sink t.sink h]
  rfl

/-- A message is counted once its records were all taken. -/
theorem handed_of_result {count : Nat} (h : (t.reply sink (.handle env m)).result = .ok (some count)) :
    ∃ outputs, (t.node.offer env m).outputs = .ok outputs ∧
      (t.reply sink (.handle env m)).attempts.map (·.output) = outputs := by
  simp only [reply, Node.handle_observed, map_eq_ok, Option.some.injEq, exists_eq_right] at h
  obtain ⟨outputs, ho, hf⟩ := Node.handle_eq_ok h
  exact ⟨outputs, ho, by rw [attempts_of_ok ho, Sink.attempts_of_taken hf]⟩

end

theorem episodes_map_call (sink : Sink σ) (s : Station σ) (calls : List Node.Call) :
    (s.episodes sink calls).map (·.call) = calls := by
  induction calls generalizing s with
  | nil => rfl
  | cons c calls ih => rw [episodes, List.map_cons, ih]; rfl

theorem episodes_filter_call (sink : Sink σ) (s : Station σ) (calls : List Node.Call)
    (p : Node.Call → Bool) :
    ((s.episodes sink calls).filter fun e => p e.call).map (·.call) = calls.filter p := by
  have h := List.filter_map (p := p) (f := fun e : Episode σ => e.call) (l := s.episodes sink calls)
  rw [episodes_map_call] at h
  exact h.symm

/-- The episodes of one call, one that is kept, on two stations that are related. -/
def Paired (sink : Sink σ) (R : Station σ → Station σ → Prop) (keep : Episode σ → Bool)
    (e e' : Episode σ) : Prop :=
  ∃ t t' c, R t t' ∧ keep (t.episode sink c) = true ∧ e = t.episode sink c ∧ e' = t'.episode sink c

/-- A run, and the run in which only the calls of some of its episodes are made. -/
theorem kept_episodes (R : Station σ → Station σ → Prop) (keep : Episode σ → Bool)
    (hkeep : ∀ t t' c, R t t' → keep (t.episode sink c) = true → R (t.call sink c) (t'.call sink c))
    (hdrop : ∀ t t' c, R t t' → keep (t.episode sink c) = false → R (t.call sink c) t')
    (h : R t t') (calls : List Node.Call) :
    let kept := (t.episodes sink calls).filter keep
    List.Forall₂ (Paired sink R keep) kept (t'.episodes sink (kept.map (·.call))) ∧
      R (t.run sink calls) (t'.run sink (kept.map (·.call))) := by
  induction calls generalizing t t' with
  | nil => exact ⟨.nil, h⟩
  | cons c calls ih =>
    intro kept
    cases hc : keep (t.episode sink c) with
    | true =>
      have hk : kept = t.episode sink c :: ((t.call sink c).episodes sink calls).filter keep :=
        List.filter_cons_of_pos hc
      obtain ⟨he, hr⟩ := ih (hkeep t t' c h hc)
      rw [hk]
      exact ⟨.cons ⟨t, t', c, h, hc, rfl, rfl⟩ he, hr⟩
    | false =>
      have hk : kept = ((t.call sink c).episodes sink calls).filter keep :=
        List.filter_cons_of_neg (by simp [hc])
      rw [hk]
      exact ih (hdrop t t' c h hc)

section
variable {R : Station σ → Station σ → Prop} {keep : Episode σ → Bool} {es es' : List (Episode σ)}

/-- What is seen alike in each of two related episodes is seen alike in two such runs. -/
theorem map_eq_of_paired {α : Type} (h : List.Forall₂ (Paired sink R keep) es es') (view : Episode σ → α)
    (hview : ∀ t t' c, R t t' → keep (t.episode sink c) = true →
      view (t.episode sink c) = view (t'.episode sink c)) : es.map view = es'.map view := by
  induction h with
  | nil => rfl
  | cons he _ ih =>
    obtain ⟨t, t', c, hr, hk, rfl, rfl⟩ := he
    rw [List.map_cons, List.map_cons, hview t t' c hr hk, ih]

theorem paired_filter (h : List.Forall₂ (Paired sink R keep) es es') (p : Node.Call → Bool) :
    List.Forall₂ (Paired sink R fun e => keep e && p e.call)
      (es.filter fun e => p e.call) (es'.filter fun e => p e.call) := by
  induction h with
  | nil => exact .nil
  | cons he _ ih =>
    obtain ⟨t, t', c, hr, hk, rfl, rfl⟩ := he
    cases hp : p c with
    | true =>
      have hpair : Paired sink R (fun e => keep e && p e.call) (t.episode sink c) (t'.episode sink c) :=
        ⟨t, t', c, hr, Bool.and_eq_true_iff.2 ⟨hk, hp⟩, rfl, rfl⟩
      simpa [List.filter_cons, episode, hp] using List.Forall₂.cons hpair ih
    | false => simpa [List.filter_cons, episode, hp] using ih

end

end Station
end InertialRelay
