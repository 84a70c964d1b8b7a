/-!
# Units

Coefficients from the units of the wire to those of the published records.
-/

namespace InertialRelay.Units

def gaussToTesla : Float := 1.0e-4

/-- Applied to the magnetic field of raw and scaled samples. -/
def millitToTesla : Float := 1000.0

def millirsToRadsec : Float := 1.0e-3

def milligToMs2 : Float := 9.80665 / 1000.0

def millibarToPascal : Float := 1.0e2

def hectopascalToPascal : Float := 100.0

def centi : Float := 100.0

def msToS : Float := 1.0e-3

def usToS : Float := 1.0e-6

end InertialRelay.Units
