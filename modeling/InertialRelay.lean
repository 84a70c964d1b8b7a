import InertialRelay.Main
import InertialRelay.Proofs.AccelerationMemory
import InertialRelay.Proofs.Arbitration
import InertialRelay.Proofs.AttitudeViews
import InertialRelay.Proofs.BridgeRefinement
import InertialRelay.Proofs.ConnectionEvents
import InertialRelay.Proofs.FaultAtomicity
import InertialRelay.Proofs.ForeignSystems
import InertialRelay.Proofs.LossNotice
import InertialRelay.Proofs.MalformedMessages
import InertialRelay.Proofs.Reconnection
import InertialRelay.Proofs.TimeoutLaw
import InertialRelay.Proofs.Episodes
import InertialRelay.Proofs.FailingSinks
import InertialRelay.Proofs.RefusedMessages
import InertialRelay.Proofs.QuantityClasses
import InertialRelay.Proofs.Delivery
import InertialRelay.Proofs.StartUp
import InertialRelay.Proofs.SharedStamps
import InertialRelay.Proofs.JsonLines
import InertialRelay.Proofs.FrameConsistency
import InertialRelay.Proofs.Detections
import InertialRelay.Proofs.RecordLayout
import InertialRelay.Proofs.ReadBack
import InertialRelay.Proofs.Overrides
import InertialRelay.Proofs.ThrottleRate
import InertialRelay.Proofs.AnnouncedGroups
import InertialRelay.Proofs.Overflow
import InertialRelay.Proofs.UnusableFields
import InertialRelay.Proofs.Magnitudes
import InertialRelay.Proofs.FiniteAxes
import InertialRelay.Proofs.EulerAngles
import InertialRelay.Proofs.RotationMatrices
import InertialRelay.Proofs.Decoding
import InertialRelay.Proofs.AttitudeForms
import InertialRelay.Proofs.RawSamples
import InertialRelay.Proofs.FieldwiseValidation
import InertialRelay.Proofs.StandardLines
import InertialRelay.Proofs.HostQuery
import InertialRelay.Proofs.LogLevels
