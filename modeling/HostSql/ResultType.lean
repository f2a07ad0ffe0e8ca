import HostSql.Error

/-!
# Declared result types

A host function may declare what its results are: numbers, text, whatever they were given as, or
whatever one of the arguments is. `coerce` applies a declaration to a value. Numeric text becomes a
number only if it is a decimal numeral whose value fits; numbers become their shortest text.
-/

namespace HostSql

/-- The declared result type of a host function. -/
inductive ResultType where
  | numeric
  | text
  | args
  | argument (position : UInt64)
  deriving Repr, DecidableEq, Inhabited

/-- The number that a text denotes: an integer when the numeral has neither point nor exponent and
fits 64 bits, else the nearest finite double. -/
def numericValue? (s : String) : Option Value :=
  match Numeral.read? s with
  | none => none
  | some n =>
    let nearest := n.toBinary64
    let asFloat := if nearest.isFinite then some (Value.float nearest) else none
    match n.exactInt? with
    | some i =>
      if Int64.minValue.toInt ≤ i ∧ i ≤ Int64.maxValue.toInt then some (.integer (Int64.ofInt i))
      else asFloat
    | none => asFloat

namespace ResultType

/-- The largest argument position with a code of its own. -/
def maxCode : Int32 := Int32.maxValue

/-- Reads a type code. Codes from zero on name an argument. -/
def ofCode? (code : Int32) : Option ResultType :=
  if code == -1 then some .numeric
  else if code == -2 then some .text
  else if code == -3 then some .args
  else if 0 ≤ code.toInt then some (.argument (UInt64.ofNat code.toInt.toNat))
  else none

/-- The code of a type. Positions past the largest code share it. -/
def code : ResultType → Int32
  | .numeric => -1
  | .text => -2
  | .args => -3
  | .argument n => if n.toNat ≤ maxCode.toInt.toNat then Int32.ofNat n.toNat else maxCode

/-- What a value can be turned into. -/
inductive Target where
  | number
  | text
  deriving Repr, DecidableEq

/-- What results are turned into in a call with arguments of the given classes; `none` keeps them.
-/
def target? (t : ResultType) (classes : List StorageClass) : Option Target :=
  match t with
  | .numeric => some .number
  | .text => some .text
  | .args => none
  | .argument n =>
    match classes[n.toNat]? with
    | some .integer | some .float => some .number
    | some .text => some .text
    | some .blob | some .null | none => none

/-- A value turned into what the declaration asks for in this call. -/
def coerce (t : ResultType) (v : Value) (classes : List StorageClass) : Value :=
  match t.target? classes, v with
  | some .number, .text s => (numericValue? s).getD v
  | some .text, .integer _ | some .text, .float _ => .text v.display
  | _, _ => v

/-- The name of a type. -/
def name : ResultType → String
  | .numeric => "Numeric"
  | .text => "Text"
  | .args => "Args"
  | .argument n => "Argument(" ++ toString n.toNat ++ ")"

end ResultType

end HostSql
