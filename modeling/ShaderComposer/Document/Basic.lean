import ShaderComposer.Decimal.Shortest

/-!
# Documents

The values of a JSON text.  A number remembers where it came from: whole numbers
of 64 bits stay whole, others are floats, and a 32-bit float is written with the
digits that 32 bits need.  The members of an object keep their order, and a key
may occur more than once.
-/

namespace ShaderComposer

inductive Number where
  | natural (n : Nat)
  /-- The number `-n`. -/
  | negative (n : Nat)
  | single (x : Float32)
  | double (x : Float)
deriving DecidableEq

namespace Number

/-- Documents write 32-bit floats without power of ten from a millionth to a
trillion. -/
def singleLayout : Decimal.Layout where
  plainFrom := -6
  plainTo := 12

/-- Documents write 64-bit floats without power of ten down to the fifth place
and up to sixteen digits. -/
def doubleLayout : Decimal.Layout where
  plainFrom := -5
  plainTo := 15

/-- A float as a document holds it; what is no finite number is null. -/
def floatText (layout : Decimal.Layout) : Binary.Datum → List Char
  | .finite value => layout.write value
  | _ => ['n', 'u', 'l', 'l']

def text : Number → List Char
  | natural n => Nat.toDigits 10 n
  | negative n => '-' :: Nat.toDigits 10 n
  | single x => floatText singleLayout (Binary.ofFloat32 x)
  | double x => floatText doubleLayout (Binary.ofFloat x)

def toFloat32 : Number → Float32
  | natural n => Binary.singleOfNat n
  | negative n => -Binary.singleOfNat n
  | single x => x
  | double x => Binary.narrow x

end Number

inductive Document where
  | null
  | bool (value : Bool)
  | number (value : Number)
  | string (value : String)
  | array (items : List Document)
  | object (members : List (String × Document))

end ShaderComposer
