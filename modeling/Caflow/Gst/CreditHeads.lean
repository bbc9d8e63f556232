import Mathlib

namespace Caflow.Gst

/-- The heads input tax credit is kept under where cess plays no part. -/
inductive CreditHead
  | igst | cgst | sgst

/-- One figure for each head. -/
abbrev Heads := CreditHead → ℤ

def Heads.of (igst cgst sgst : ℤ) : Heads
  | .igst => igst
  | .cgst => cgst
  | .sgst => sgst

def Heads.totalPaise (t : Heads) : ℤ := t .cgst + t .sgst + t .igst

end Caflow.Gst
