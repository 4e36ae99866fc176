import Noxy.Main
import Noxy.Proofs.Compatibility
import Noxy.Proofs.Roundtrip
import Noxy.Proofs.Passing
import Noxy.Proofs.ByteLiterals
import Noxy.Proofs.Layout
import Noxy.Proofs.Template
import Noxy.Proofs.Utf8
import Noxy.Proofs.IntegerText
import Noxy.Proofs.InstanceShape
import Noxy.Proofs.Overlooked
import Noxy.Proofs.UnboundNames
import Noxy.Proofs.CallResolution
import Noxy.Proofs.Interaction
import Noxy.Proofs.ReferenceEquality
import Noxy.Proofs.Acceptance
import Noxy.Proofs.Mirroring
import Noxy.Proofs.SqlText
import Noxy.Proofs.ScopeChains
import Noxy.Proofs.DefaultValues
import Noxy.Proofs.Closing
import Noxy.Proofs.Locations
