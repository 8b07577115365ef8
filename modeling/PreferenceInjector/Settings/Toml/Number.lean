import PreferenceInjector.Settings.Toml.Text
import PreferenceInjector.Settings.Value

/-!
# Numbers, dates and times of TOML documents

Whole numbers lie between `-2^63` and `2^63 - 1`; underscores may stand between two digits. A
decimal number denotes the nearest number of the binary format and must not exceed all of them.
Dates and times are recognised and checked, and count as tables.
-/

namespace PreferenceInjector.Settings.Toml

open Taken

/-- Digits that satisfy `p`, single underscores between them; the value holds the digits alone. -/
def takeDigits (p : Char → Bool) (s : List Char) : Taken (List Char) s :=
  (one p s).finish fun first r _ =>
  (many (fun t =>
    (one p t).or fun _ => (mark '_' t).andThen fun _ t₁ _ => one p t₁) r).finish fun more r₁ _ =>
  Kept.done (first :: more) r₁

/-- A sign, if there is one; the value says whether it is a minus. -/
def takeSign (s : List Char) : Kept Bool s :=
  (maybe (one (fun c => c == '+' || c == '-') s)).finish fun sign r _ =>
  Kept.done (sign == some '-') r

/-- A sign and digits without a needless zero in front. -/
def takeWhole (s : List Char) : Taken (Bool × List Char) s :=
  (takeSign s).andThen fun negative r _ =>
    (((one (fun c => '1' ≤ c && c ≤ '9') r).finish fun first r₁ _ =>
      (many (fun t => (one Char.isDigit t).or fun _ =>
        (mark '_' t).andThen fun _ t₁ _ => one Char.isDigit t₁) r₁).finish fun more r₂ _ =>
      Kept.done (negative, first :: more) r₂)).or fun _ =>
    (mark '0' r).as fun zero => (negative, [zero])

/-- The number that decimal digits denote. -/
def decimalNumber (digits : List Char) : Nat :=
  digits.foldl (fun n c => 10 * n + (c.toNat - '0'.toNat)) 0

/-- The exponent after an `e`. -/
def takeExponent (s : List Char) : Taken Int s :=
  (one (fun c => c == 'e' || c == 'E') s).andThen fun _ r _ =>
  (takeSign r).andThen fun negative r₁ _ =>
  (takeDigits Char.isDigit r₁).as fun digits =>
    if negative then -(decimalNumber digits : Int) else decimalNumber digits

/-- A decimal number with a fraction, an exponent or both. -/
def takeDecimal (s : List Char) : Taken Binary64 s :=
  ((takeWhole s).andThen fun (negative, whole) r _ =>
    ((takeExponent r).as fun e => (negative, whole, ([] : List Char), e)).or fun _ =>
      (mark '.' r).andThen fun _ r₁ _ =>
      (takeDigits Char.isDigit r₁).finish fun fraction r₂ _ =>
      (maybe (takeExponent r₂)).finish fun e r₃ _ =>
      Kept.done (negative, whole, fraction, e.getD 0) r₃).asMaybe
    fun (negative, whole, fraction, e) =>
      match Binary64.ofDecimal negative (decimalNumber (whole ++ fraction))
        (e - fraction.length) with
      | .infinite false => none
      | number => some number

/-- Infinity or the value that is no number, possibly with a sign. -/
def takeSpecial (s : List Char) : Taken Binary64 s :=
  (takeSign s).andThen fun negative r _ =>
    ((word ['i', 'n', 'f'] r).as fun _ => Binary64.infinite negative).or fun _ =>
      (word ['n', 'a', 'n'] r).as fun _ => Binary64.notANumber

/-- A whole number in another base than ten. -/
def takeBased (mark : Char) (base : Nat) (p : Char → Bool) (s : List Char) : Taken Int s :=
  ((word ['0', mark] s).andThen fun _ r _ => takeDigits p r).as fun digits =>
    (digits.foldl (fun n c => base * n + (hexValue? c).getD 0) 0 : Nat)

/-- A whole number. -/
def takeInteger (s : List Char) : Taken Int s :=
  ((takeBased 'x' 16 (fun c => (hexValue? c).isSome) s).or fun _ =>
    (takeBased 'o' 8 (fun c => '0' ≤ c && c ≤ '7') s).or fun _ =>
      (takeBased 'b' 2 (fun c => c == '0' || c == '1') s).or fun _ =>
        (takeWhole s).as fun (negative, digits) =>
          if negative then -(decimalNumber digits : Int) else decimalNumber digits).asMaybe
    fun n => if -(Nat.pow 2 63 : Int) ≤ n ∧ n < (Nat.pow 2 63 : Int) then some n else none

/-- A number of `n + 1` decimal digits between two bounds. -/
def takePart (n low high : Nat) (s : List Char) : Taken Nat s :=
  (exactly Char.isDigit n s).asMaybe fun digits =>
    let value := decimalNumber digits
    if low ≤ value ∧ value ≤ high then some value else none

/-- How many days a month has. -/
def daysIn (year month : Nat) : Nat :=
  if month = 2 then
    if year % 4 = 0 ∧ (year % 100 ≠ 0 ∨ year % 400 = 0) then 29 else 28
  else if month = 4 ∨ month = 6 ∨ month = 9 ∨ month = 11 then 30
  else 31

/-- A date. -/
def takeDate (s : List Char) : Taken Unit s :=
  (takePart 3 0 9999 s).andThen fun year r _ =>
  (mark '-' r).andThen fun _ r₁ _ =>
  (takePart 1 1 12 r₁).andThen fun month r₂ _ =>
  (mark '-' r₂).andThen fun _ r₃ _ =>
  (takePart 1 1 (daysIn year month) r₃).as fun _ => ()

/-- A time of day. -/
def takeTime (s : List Char) : Taken Unit s :=
  (takePart 1 0 23 s).andThen fun _ r _ =>
  (mark ':' r).andThen fun _ r₁ _ =>
  (takePart 1 0 59 r₁).andThen fun _ r₂ _ =>
  (mark ':' r₂).andThen fun _ r₃ _ =>
  (takePart 1 0 60 r₃).finish fun _ r₄ _ =>
  (maybe ((mark '.' r₄).andThen fun _ r₅ _ => someRun Char.isDigit r₅)).finish fun _ r₅ _ =>
  Kept.done () r₅

/-- The distance of a time from universal time. -/
def takeOffset (s : List Char) : Taken Unit s :=
  ((one (fun c => c == 'Z' || c == 'z') s).as fun _ => ()).or fun _ =>
    (one (fun c => c == '+' || c == '-') s).andThen fun _ r _ =>
    (takePart 1 0 23 r).andThen fun _ r₁ _ =>
    (mark ':' r₁).andThen fun _ r₂ _ =>
    (takePart 1 0 59 r₂).as fun _ => ()

/-- A date, a time or both. -/
def takeMoment (s : List Char) : Taken Unit s :=
  ((takeDate s).finish fun _ r _ =>
    (maybe ((one (fun c => c == 'T' || c == 't' || c == ' ') r).andThen fun _ r₁ _ =>
      (takeTime r₁).finish fun _ r₂ _ =>
      (maybe (takeOffset r₂)).finish fun _ r₃ _ => Kept.done () r₃)).finish fun _ r₁ _ =>
    Kept.done () r₁).or fun _ => takeTime s

end PreferenceInjector.Settings.Toml
