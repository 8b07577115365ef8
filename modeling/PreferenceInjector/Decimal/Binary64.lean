/-!
# Numbers of 64 bits

The numbers of the binary format with 53 bits of precision: a decimal text denotes the nearest of
them, and each is shown with the fewest decimal digits that denote it again, without an exponent.
All of it is exact arithmetic on natural numbers.
-/

namespace PreferenceInjector

/-- A number of the format: `mantissa · 2 ^ exponent` with a sign, or one of the special values. -/
inductive Binary64 where
  | finite (negative : Bool) (mantissa : Nat) (exponent : Int)
  | infinite (negative : Bool)
  | notANumber
  deriving DecidableEq, Repr

namespace Binary64

/-- A quotient rounded to the nearest natural number, a half to the even one. -/
def roundQuotient (num den : Nat) : Nat :=
  let below := num / den
  let twice := 2 * (num % den)
  if den < twice ∨ (twice = den ∧ below % 2 = 1) then below + 1 else below

/-- A power of a base as numerator and denominator. -/
def power (base : Nat) (exponent : Int) : Nat × Nat :=
  match exponent with
  | .ofNat n => (Nat.pow base n, 1)
  | .negSucc n => (1, Nat.pow base (n + 1))

/-- The number nearest to a positive quotient. -/
def ofQuotient (negative : Bool) (num den : Nat) : Binary64 :=
  let scaled := fun (exponent : Int) =>
    let (up, down) := power 2 exponent
    (num * down, den * up)
  let estimate : Int := max ((num.log2 : Int) - den.log2 - 53) (-1074)
  let (n, d) := scaled estimate
  let exponent := if Nat.pow 2 53 ≤ n / d then estimate + 1 else estimate
  let (n, d) := scaled exponent
  let mantissa := roundQuotient n d
  let (mantissa, exponent) :=
    if mantissa = Nat.pow 2 53 then (Nat.pow 2 52, exponent + 1) else (mantissa, exponent)
  if 971 < exponent then infinite negative else finite negative mantissa exponent

/-- The number nearest to `digits · 10 ^ exponent`. Values beyond all numbers of the format are
recognised by their size, so that no large power is computed for them. -/
def ofDecimal (negative : Bool) (digits : Nat) (exponent : Int) : Binary64 :=
  let size : Int := (Nat.toDigits 10 digits).length + exponent
  if digits = 0 ∨ size < -400 then finite negative 0 0
  else if 400 < size then infinite negative
  else
    let (up, down) := power 10 exponent
    ofQuotient negative (digits * up) down

/-- The digits and the exponent of ten of the shortest decimal that denotes
`mantissa · 2 ^ exponent`, which is positive: on the coarsest decimal grid with a point that
rounds to the number, the point nearest to it. -/
def shortest (mantissa : Nat) (exponent : Int) : Nat × Int :=
  let (up, down) := power 2 (exponent - 2)
  let value := 4 * mantissa * up
  let low := (4 * mantissa - if mantissa = Nat.pow 2 52 ∧ -1074 < exponent then 1 else 2) * up
  let high := (4 * mantissa + 2) * up
  let even := mantissa % 2 == 0
  let onGrid := fun (place : Int) =>
    let (ten, tenth) := power 10 place
    let below := value * tenth / (down * ten)
    let denotes := fun (point : Nat) =>
      let product := point * ten * down
      if even then decide (low * tenth ≤ product ∧ product ≤ high * tenth)
      else decide (low * tenth < product ∧ product < high * tenth)
    let above := below + 1
    let nearAbove := (above * ten * down - value * tenth) ≤ (value * tenth - below * ten * down)
    match denotes below, denotes above with
    | true, true => some (if nearAbove then above else below, place)
    | true, false => some (below, place)
    | false, true => some (above, place)
    | false, false => none
  let top : Int := ((value.log2 : Int) - down.log2 + 1) * 30103 / 100000 + 2
  ((List.range 40).findSome? fun (n : Nat) => onGrid (top - n)).getD (mantissa, exponent)

/-- `digits · 10 ^ exponent` written without an exponent. -/
def positional (digits : Nat) (exponent : Int) : String :=
  let ds := Nat.toDigits 10 digits
  match exponent with
  | .ofNat n => String.ofList (ds ++ List.replicate n '0')
  | .negSucc n =>
    let places := n + 1
    if ds.length ≤ places then
      "0." ++ String.ofList (List.replicate (places - ds.length) '0' ++ ds)
    else
      String.ofList (ds.take (ds.length - places)) ++ "." ++
        String.ofList (ds.drop (ds.length - places))

/-- The text of a number: the fewest digits that denote it, without an exponent and without a
point in a whole number. -/
def text : Binary64 → String
  | finite negative mantissa exponent =>
    (if negative then "-" else "") ++
      if mantissa = 0 then "0"
      else
        let (digits, place) := shortest mantissa exponent
        positional digits place
  | infinite negative => if negative then "-inf" else "inf"
  | notANumber => "NaN"

end Binary64

end PreferenceInjector
