import CrossRef.Command.Run
import CrossRef.Proofs.Audit
import CrossRef.Proofs.Section
import Mathlib.Algebra.GroupWithZero.Nat

namespace CrossRef

open Text

namespace Report

namespace Section

end Section

end Report

namespace Report

end Report

end CrossRef
