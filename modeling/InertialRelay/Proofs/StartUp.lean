import InertialRelay.Bridge
import InertialRelay.Config.Load
import InertialRelay.Proofs.Readings
import InertialRelay.Proofs.Squaring

/-!
# Starting from a configuration

What the rules accept, the parts of a bridge take over, with one exception: a standard deviation is squared when
the bridge is put together, and the square of a finite number may be out of range (`Bridge.starts_iff`).
-/

namespace InertialRelay

open Binary64 (Squarable unpack)

namespace Binary64

theorem unpack_of_beq_zero {x : Float} (h : (x == 0) = true) : ∃ s, unpack x = .zero s := by
  have hcompare : ((unpack x).compare (.zero .positive) == some .eq) = true := h
  cases hx : unpack x with
  | zero s => exact ⟨s, rfl⟩
  | notANumber => rw [hx] at hcompare; cases hcompare
  | infinity s => rw [hx] at hcompare; cases s <;> cases hcompare
  | finite s m e hm => rw [hx] at hcompare; cases s <;> cases hcompare

theorem squarable_of_beq_zero {x : Float} (h : (x == 0) = true) : Squarable x := by
  obtain ⟨s, hs⟩ := unpack_of_beq_zero h
  simp [Squarable, toRat?, hs]

end Binary64

namespace Covariance
variable {x : Float} {f : Fault}

theorem ofStdev_eq_ok : (∃ c, ofStdev (.real x) = .ok c) ↔ Squarable x := by
  unfold ofStdev
  by_cases hz : (Num.real x).isZero = true
  · rw [if_pos hz]
    exact iff_of_true ⟨_, rfl⟩ (Binary64.squarable_of_beq_zero hz)
  · rw [if_neg hz]
    constructor
    · rintro ⟨c, hc⟩
      obtain ⟨y, hy, hc⟩ := bind_eq_ok.1 hc
      obtain ⟨v, hv, -⟩ := bind_eq_ok.1 hc
      cases hy
      by_contra h
      rw [square_of_not_squarable h] at hv
      cases hv
    · intro h
      exact ⟨_, bind_eq_ok.2 ⟨x, rfl, bind_eq_ok.2 ⟨_, square_of_squarable h, rfl⟩⟩⟩

theorem fault_of_ofStdev (h : ofStdev (.real x) = .error f) : f = .squareTooLarge := by
  by_cases hs : Squarable x
  · obtain ⟨c, hc⟩ := ofStdev_eq_ok.2 hs
    rw [hc] at h
    cases h
  · unfold ofStdev at h
    split at h
    · cases h
    · rcases bind_eq_error.1 h with h | ⟨y, hy, h⟩
      · cases h
      · cases hy
        rw [square_of_not_squarable hs] at h
        cases h
        rfl

end Covariance

namespace ImuConfig

/-- The standard deviations of a configuration, in the order in which they are squared. -/
def stdevs (c : ImuConfig) : List Float :=
  [c.linearAccelerationStdev, c.angularVelocityStdev, c.orientationStdev, c.magneticStdev]

end ImuConfig

namespace Labels
variable {c : ImuConfig} {f : Fault}

theorem ofConfig_eq_ok : (∃ l, ofConfig c = .ok l) ↔ ∀ x ∈ c.stdevs, Squarable x := by
  simp only [ImuConfig.stdevs, List.forall_mem_cons, ← Covariance.ofStdev_eq_ok, ofConfig, bind_eq_ok, pure_eq_ok]
  constructor
  · rintro ⟨-, acceleration, ha, angularVelocity, hv, orientation, ho, magnetic, hm, -⟩
    exact ⟨⟨acceleration, ha⟩, ⟨angularVelocity, hv⟩, ⟨orientation, ho⟩, ⟨magnetic, hm⟩, nofun⟩
  · rintro ⟨⟨acceleration, ha⟩, ⟨angularVelocity, hv⟩, ⟨orientation, ho⟩, ⟨magnetic, hm⟩, -⟩
    exact ⟨_, acceleration, ha, angularVelocity, hv, orientation, ho, magnetic, hm, rfl⟩

theorem fault_of_ofConfig (h : ofConfig c = .error f) : f = .squareTooLarge := by
  simp only [ofConfig, bind_eq_error] at h
  rcases h with h | ⟨_, _, h | ⟨_, _, h | ⟨_, _, h | ⟨_, _, h⟩⟩⟩⟩
  · exact Covariance.fault_of_ofStdev h
  · exact Covariance.fault_of_ofStdev h
  · exact Covariance.fault_of_ofStdev h
  · exact Covariance.fault_of_ofStdev h
  · cases h

end Labels

namespace Bridge
variable {σ : Type}

/-- A bridge can be put together from accepted settings exactly if no standard deviation is too large to be
squared, which is all that can go wrong. The link takes its settings as they are. -/
theorem starts_iff {d : Data} {c : BridgeConfig} (_h : Rule.bridgeConfig.validate "BridgeConfig" d = .ok c)
    (sink : σ) :
    ((∃ b, ofConfig c sink = .ok b) ↔ ∀ x ∈ c.imu.stdevs, Squarable x) ∧
      (∀ f, ofConfig c sink = .error f → f = .squareTooLarge) ∧
      LinkSettings.ofData c.link.url (.int c.link.sourceSystem) (.int c.link.sourceComponent)
        (.real c.link.connTimeout) = .ok (.ofConfig c.link) := by
  refine ⟨?_, fun f hf => ?_, rfl⟩
  · rw [← Labels.ofConfig_eq_ok]
    simp only [ofConfig, Node.ofConfig, bind_eq_ok, pure_eq_ok]
    constructor
    · rintro ⟨-, -, ⟨labels, hl, -⟩, -⟩
      exact ⟨labels, hl⟩
    · rintro ⟨labels, hl⟩
      exact ⟨_, _, ⟨labels, hl, rfl⟩, rfl⟩
  · simp only [ofConfig, Node.ofConfig, bind_eq_error] at hf
    rcases hf with (hf | ⟨_, _, hf⟩) | ⟨_, _, hf⟩
    · exact Labels.fault_of_ofConfig hf
    · cases hf
    · cases hf

theorem starts_with_stdev_two :
    ∃ c, Rule.bridgeConfig.validate "BridgeConfig" (.map [("imu", .map [("orientation_stdev", .real 2)])]) =
      .ok c ∧ c.imu.orientationStdev = 2 ∧ ∃ b, ofConfig c () = .ok b := by
  have h : Rule.bridgeConfig.validate "BridgeConfig" (.map [("imu", .map [("orientation_stdev", .real 2)])]) =
      .ok { imu := { orientationStdev := 2 } } := rfl
  refine ⟨_, h, rfl, (starts_iff h ()).1.2 ?_⟩
  simp only [ImuConfig.stdevs, List.forall_mem_cons, Binary64.squarable_iff]
  decide +kernel

/-- A standard deviation whose square is out of range is accepted, and nothing starts. -/
theorem accepted_without_start :
    ∃ c, Rule.bridgeConfig.validate "BridgeConfig" (.map [("imu", .map [("orientation_stdev", .real 1e200)])]) =
      .ok c ∧ ofConfig c () = .error .squareTooLarge := by
  have hnode : Node.ofConfig { orientationStdev := 1e200 } = .error .squareTooLarge := by decide +kernel
  refine ⟨{ imu := { orientationStdev := 1e200 } }, rfl, ?_⟩
  rw [ofConfig, hnode]
  rfl

end Bridge

end InertialRelay
