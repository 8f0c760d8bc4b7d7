import MdInfoSet.Core.Machine

/-!
# The verdicts of the quote filters

`COM_RESULT` and `PRICE_COM`, which the GFEX and the DCE receivers each declare
(src/dz_gfex_md/src/dz_gfex_md.h:388-394, src/dz_gfex_md/src/dz_gfex_md.cpp:713-715,
src/nano_febao_dce/src/dce_nano.h:66-72, src/nano_febao_dce/src/dce_nano.cpp:278-280).
-/
namespace MdInfoSet.L4.Filter

inductive ComResult where
  | ok
  /-- Time runs backwards. -/
  | timeError
  /-- Volume runs backwards. -/
  | volError
  | repeatL1
  | repeatL2
  deriving DecidableEq, Repr

/-- `PRICE_COM`: false as soon as one side is a NaN. -/
def priceCom (a b : Float) : Prop := (a - b).abs < 1e-8

instance (a b : Float) : Decidable (priceCom a b) :=
  inferInstanceAs (Decidable ((a - b).abs < 1e-8))

end MdInfoSet.L4.Filter
