import InertialRelay.Proofs.Episodes

/-!
# Messages that are refused

`Station.refused_unseen`: a run shows the same without the messages that the arbiter refuses. Which ones these
are depends on the run, so they are found in the whole run and then deleted from it all at once.
-/

namespace InertialRelay

/-- A refused message is all that the arbiter says, because the best source is the one before. -/
theorem Arbiter.log_of_refused {a : Arbiter} {k : Kind} (h : (a.accept k).accepted = false) :
    (a.accept k).log = a.refusal k false := by
  have hsame := accept_unchanged (.inl h)
  unfold accept at h hsame ⊢
  split at h
  · simp only [AttitudeSource.meet] at h hsame ⊢
    split at h <;> simp_all [announce]
  · simp only [InertialSource.meet] at h hsame ⊢
    split at h <;> simp_all [announce]
  · simp_all

theorem Node.handle_refused {σ : Type} (sink : Sink σ) {n : Node} (s : σ) (env : Ambient) {m : Message}
    (h : (n.arbiter.accept m.kind).accepted = false) :
    n.handle sink s env m = ⟨n, s, n.arbiter.refusal m.kind false, .ok 0⟩ := by
  simp [handle, offer_refused h, Arbiter.log_of_refused h, Sink.publishAll, Reaction.untilFault]

/-- Whether the call hands over a message that the arbiter refuses. -/
def Episode.refused {σ : Type} (e : Episode σ) : Bool :=
  match e.call with
  | .handle _ m => !(e.before.node.arbiter.accept m.kind).accepted
  | .connectionChanged _ => false

namespace Station
variable {σ : Type} {sink : Sink σ} {t : Station σ}

theorem call_refused (env : Ambient) {m : Message}
    (h : (t.node.arbiter.accept m.kind).accepted = false) : t.call sink (.handle env m) = t := by
  rw [call, Node.handle_refused sink t.sink env h]

theorem reply_refused (env : Ambient) {m : Message}
    (h : (t.node.arbiter.accept m.kind).accepted = false) :
    t.reply sink (.handle env m) = ⟨.ok (some 0), [], t.node.arbiter.refusal m.kind false⟩ := by
  rw [reply, Node.handle_refused sink.observed (t.sink, []) env h]
  rfl

theorem call_of_refused {c : Node.Call} (h : (t.episode sink c).refused = true) : t.call sink c = t := by
  cases c with
  | connectionChanged connected => cases h
  | handle env m => exact call_refused env (by simpa [Episode.refused, episode] using h)

/-- The messages that are refused in a run are deleted from it. Every other call is made on the same node and
sink as before, and shows the same; and so the run ends with the same node and sink. A message that is
refused changes nothing, publishes nothing and returns. What is left of it is one line of the lowest severity,
which does not depend on its fields, on any clock, or on the firmware. -/
theorem refused_unseen (sink : Sink σ) (s : Station σ) (calls : List Node.Call) :
    let kept := (s.episodes sink calls).filter (!·.refused)
    (s.episodes sink (kept.map (·.call)) = kept ∧
      s.run sink (kept.map (·.call)) = s.run sink calls) ∧
    ∀ (t : Station σ) (k : Kind), (t.node.arbiter.accept k).accepted = false →
      ∀ env m, m.kind = k →
        t.reply sink (.handle env m) = ⟨.ok (some 0), [], [⟨.debug, .arbiter,
          "Dropped " ++ k.name ++ " (state=" ++ t.node.arbiter.describe ++ ")"⟩]⟩ ∧
        t.call sink (.handle env m) = t := by
  intro kept
  refine ⟨?_, fun t k hk env m hm => ?_⟩
  · have hkeep : ∀ (t t' : Station σ) c, t = t' → (!(t.episode sink c).refused) = true →
        t.call sink c = t'.call sink c := fun t t' c h _ => by rw [h]
    have hdrop : ∀ (t t' : Station σ) c, t = t' → (!(t.episode sink c).refused) = false →
        t.call sink c = t' := by
      intro t t' c h hc
      rw [← h]
      exact call_of_refused (by simpa using hc)
    obtain ⟨he, hr⟩ := kept_episodes Eq (!·.refused) hkeep hdrop (rfl : s = s) calls
    have heq := he.imp fun e e' h => show e = e' by
      obtain ⟨t, t', c, rfl, -, rfl, rfl⟩ := h
      rfl
    rw [List.forall₂_eq_eq_eq] at heq
    exact ⟨heq.symm, hr.symm⟩
  · subst hm
    exact ⟨reply_refused env hk, call_refused env hk⟩

/-- An integer that is too large for a float does no harm where it is not looked at. -/
theorem refused_unseen_huge :
    let n : Node :=
      { assembler := { labels := ⟨"base_link", {}, .unknown, .unknown, .unknown, .unknown⟩ } }
    let zero : Vec3 Num := ⟨.int 0, .int 0, .int 0⟩
    let highres : Message :=
      .highresImu ⟨.int 5, zero, zero, zero, .int 0, .int 0, .int 0, .int 0, .int 63⟩
    let huge : Message := .scaledImu ⟨.int 0, ⟨.int (2 ^ 1100), .int 0, .int 0⟩, zero, zero⟩
    let s : Station (List Output) := ⟨n, []⟩
    let t := s.run Sink.recording [.handle {} highres]
    (Reading.ofMessage huge false = .error .intTooLarge ∧
      (t.node.arbiter.accept .scaledImu).accepted = false) ∧
    (t.reply Sink.recording (.handle {} huge)).result = .ok (some 0) := by
  intro n zero highres huge s t
  have hu : Reading.ofMessage huge false = .error .intTooLarge := by decide +kernel
  have ha : (t.node.arbiter.accept .scaledImu).accepted = false := by decide +kernel
  have hr := ((refused_unseen Sink.recording s []).2 t .scaledImu ha {} huge rfl).1
  exact ⟨⟨hu, ha⟩, by rw [hr]⟩

end Station
end InertialRelay
