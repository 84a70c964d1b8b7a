import InertialRelay.Proofs.Episodes

/-!
# Sinks that fail

`Station.sink_irrelevant`: what a node remembers, and which records it has to publish, is settled before the
first of them is handed on. A sink that fails only loses what comes after it in the same call
(`Curtailed`).
-/

namespace InertialRelay

/-- What is handed on of records: all of them, or no more after the first that is refused. -/
structure Curtailed (outputs : List Output) (attempts : List Attempt) : Prop where
  inOrder : attempts.map (·.output) <+: outputs
  taken : ∀ a ∈ attempts.dropLast, a.fault = none
  complete : attempts.map (·.output) = outputs ∨
    ∃ a f, attempts.getLast? = some a ∧ a.fault = some f

namespace Curtailed
variable {outputs : List Output} {attempts : List Attempt}

theorem nil : Curtailed [] [] := ⟨List.prefix_rfl, by simp, .inl rfl⟩

theorem refused (o : Output) (rest : List Output) (f : Fault) : Curtailed (o :: rest) [⟨o, some f⟩] :=
  ⟨⟨rest, rfl⟩, by simp, .inr ⟨_, f, rfl, rfl⟩⟩

theorem cons (h : Curtailed outputs attempts) (o : Output) :
    Curtailed (o :: outputs) (⟨o, none⟩ :: attempts) := by
  obtain ⟨hin, htaken, hc⟩ := h
  refine ⟨List.cons_prefix_cons.2 ⟨rfl, hin⟩, ?_, ?_⟩
  · cases attempts with
    | nil => simp
    | cons a attempts =>
      rw [List.dropLast_cons_cons]
      exact List.forall_mem_cons.2 ⟨rfl, htaken⟩
  · rcases hc with hc | ⟨a, f, ha, hf⟩
    · exact .inl (congrArg (o :: ·) hc)
    · refine .inr ⟨a, f, ?_, hf⟩
      rw [List.getLast?_cons, ha]
      rfl

theorem all_of_taken (h : Curtailed outputs attempts) (ht : ∀ a ∈ attempts, a.fault = none) :
    attempts.map (·.output) = outputs := by
  rcases h.complete with hc | ⟨a, f, ha, hf⟩
  · exact hc
  · rw [ht a (List.mem_of_getLast? ha)] at hf
    cases hf

end Curtailed

theorem Sink.attempts_curtailed {σ : Type} (sink : Sink σ) (outputs : List Output) (s : σ) :
    Curtailed outputs (sink.attempts outputs s) := by
  induction outputs generalizing s with
  | nil => exact .nil
  | cons o rest ih =>
    unfold attempts
    split
    next f _ => exact .refused o rest f
    next => exact (ih _).cons o

/-- What calls have to publish, each in its turn. -/
def Node.schedule (n : Node) : List Call → List (List Output)
  | [] => []
  | c :: calls => n.records c :: (n.after c).schedule calls

namespace Station
variable {σ : Type}

theorem episodes_curtailed (sink : Sink σ) (t : Station σ) (calls : List Node.Call) :
    List.Forall₂ Curtailed (t.node.schedule calls)
      ((t.episodes sink calls).map (·.reply.attempts)) := by
  induction calls generalizing t with
  | nil => exact .nil
  | cons c calls ih =>
    have hfirst : Curtailed (t.node.records c) (t.reply sink c).attempts := by
      rw [reply_attempts]
      exact sink.attempts_curtailed _ _
    have hrest := ih (t.call sink c)
    rw [call_node] at hrest
    exact .cons hfirst hrest

/-- One node takes the same calls with two sinks, each of which may fail at any record. The node is the same
after every call. What it has to publish at each call does not depend on the sink, and either sink is handed
just this, up to the first record that it refuses. -/
theorem sink_irrelevant {σ' : Type} (sink : Sink σ) (sink' : Sink σ') (n : Node) (s : σ) (s' : σ')
    (calls : List Node.Call) :
    (∀ k, (run sink ⟨n, s⟩ (calls.take k)).node = (run sink' ⟨n, s'⟩ (calls.take k)).node) ∧
    List.Forall₂ Curtailed (n.schedule calls) ((episodes sink ⟨n, s⟩ calls).map (·.reply.attempts)) ∧
    List.Forall₂ Curtailed (n.schedule calls) ((episodes sink' ⟨n, s'⟩ calls).map (·.reply.attempts)) := by
  refine ⟨fun k => ?_, ?_, ?_⟩
  · rw [run_node, run_node]
  · exact episodes_curtailed sink ⟨n, s⟩ calls
  · exact episodes_curtailed sink' ⟨n, s'⟩ calls

end Station
end InertialRelay
