import DataTree.Binary

namespace DataTree

namespace Format

def topField (F : Format) : Nat := (F.maxExponent - F.minExponent + 2).toNat

def signPlace (F : Format) : Nat := F.precision + F.topField.log2

end Format

namespace Binary

variable {F : Format}

private def pack (negative : Bool) (field fraction : Nat) : Nat :=
  (if negative then 1 <<< F.signPlace else 0) + field <<< (F.precision - 1) + fraction

def toBits : Binary F → Nat
  | .nan => pack (F := F) false F.topField (1 <<< (F.precision - 2))
  | .infinity negative => pack (F := F) negative F.topField 0
  | .finite negative m e _ =>
      let width : Nat := 1 <<< (F.precision - 1)
      if m < width then pack (F := F) negative 0 m
      else pack (F := F) negative (e - F.minExponent + 1).toNat (m - width)

def ofBits (bits : Nat) : Binary F :=
  let negative := bits >>> F.signPlace % 2 == 1
  let width : Nat := 1 <<< (F.precision - 1)
  let field := bits / width % (F.topField + 1)
  let fraction := bits % width
  if field = F.topField then if fraction = 0 then .infinity negative else .nan
  else if field = 0 then ofParts negative fraction F.minExponent
  else ofParts negative (width + fraction) (F.minExponent + (field - 1 : Nat))

end Binary

end DataTree
