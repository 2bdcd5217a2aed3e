import UnitAlgebra.Fault.Message
import UnitAlgebra.Interchange.JsonText
import UnitAlgebra.Operand.Vector
import UnitAlgebra.Quantity.Call
import UnitAlgebra.Quantity.Digest
import UnitAlgebra.Registry.Table
import UnitAlgebra.Proofs.Catalog.Definitions
import UnitAlgebra.Proofs.Conversion.Groupoid
import UnitAlgebra.Proofs.Expression.Blame
import UnitAlgebra.Proofs.Expression.Faults
import UnitAlgebra.Proofs.Expression.Integers
import UnitAlgebra.Proofs.Expression.NetExponents
import UnitAlgebra.Proofs.Expression.Printing
import UnitAlgebra.Proofs.Expression.Shorthand
import UnitAlgebra.Proofs.Expression.Viability
import UnitAlgebra.Proofs.Fault.Messages
import UnitAlgebra.Proofs.Interchange.Labels
import UnitAlgebra.Proofs.Interchange.Refusals
import UnitAlgebra.Proofs.Interchange.RoundTrip
import UnitAlgebra.Proofs.Interchange.Spacing
import UnitAlgebra.Proofs.Naming.Registries
import UnitAlgebra.Proofs.Naming.RoundTrip
import UnitAlgebra.Proofs.Naming.Totality
import UnitAlgebra.Proofs.Quantity.ArraySoundness
import UnitAlgebra.Proofs.Quantity.Bare
import UnitAlgebra.Proofs.Quantity.Closeness
import UnitAlgebra.Proofs.Quantity.Equality
import UnitAlgebra.Proofs.Quantity.Formats
import UnitAlgebra.Proofs.Quantity.Layers
import UnitAlgebra.Proofs.Quantity.Linear
import UnitAlgebra.Proofs.Quantity.Matching
import UnitAlgebra.Proofs.Quantity.NumberExponents
import UnitAlgebra.Proofs.Quantity.Places
import UnitAlgebra.Proofs.Quantity.Reduction
import UnitAlgebra.Proofs.Quantity.Soundness
import UnitAlgebra.Proofs.Quantity.WritePaths
import UnitAlgebra.Proofs.Registry.Stripping
import UnitAlgebra.Proofs.Settings.InForce
import UnitAlgebra.Proofs.Decimal.Bits
import UnitAlgebra.Proofs.Decimal.Nearest
