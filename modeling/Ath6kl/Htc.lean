import Mathlib.Data.Fin.Basic

/-! What the two HTC implementations share (`htc.h`). -/
namespace Ath6kl.Htc

instance endpointMax_ne_zero : @NeZero Nat Zero.ofOfNat0 9 := ⟨Nat.succ_ne_zero 8⟩

/-- `enum htc_endpoint_id`; `ENDPOINT_MAX` is 9. -/
abbrev Eid := Fin 9

/-- `ENDPOINT_MAX`, for endpoint numbers off the wire. -/
def endpointMax : Nat := 9

/-- `sizeof(struct htc_frame_hdr)`. -/
def htcHdrLength : Nat := 6

/-- `struct htc_credit_report`. -/
structure CreditReport where
  eid : Nat
  credits : Nat
deriving DecidableEq

end Ath6kl.Htc
