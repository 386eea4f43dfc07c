import ThreeAddress.Text.Decimal

/-!
# Fresh names

Temporaries `t1`, `t2`, … and labels `L1`, `L2`, …, each numbered by a counter of 32 bits of its own.
-/

namespace ThreeAddress
open Text

structure FreshNames where
  temps : UInt32 := 0
  labels : UInt32 := 0
deriving DecidableEq, Repr

namespace FreshNames

def temp (n : FreshNames) : String × FreshNames :=
  let k := n.temps + 1
  ("t" ++ Decimal.ofNat k.toNat, { n with temps := k })

def label (n : FreshNames) : String × FreshNames :=
  let k := n.labels + 1
  ("L" ++ Decimal.ofNat k.toNat, { n with labels := k })

end FreshNames

end ThreeAddress
