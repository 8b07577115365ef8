/-!
# Texts cut into pieces

Cutting a text at every occurrence of one character, and cutting it into lines. A text has one
piece more than it has separators, so pieces may be empty; a text that ends in a line end has no
empty line after it.
-/

namespace PreferenceInjector

/-- The pieces of a text between the occurrences of `sep`. -/
def pieces (sep : Char) : List Char → List (List Char)
  | [] => [[]]
  | c :: rest =>
    if c = sep then [] :: pieces sep rest
    else
      match pieces sep rest with
      | [] => [[c]]
      | piece :: more => (c :: piece) :: more

/-- The lines of a text. A line ends at a line feed, and a carriage return just before that line
feed is part of the line end. -/
def textLines : List Char → List (List Char)
  | [] => []
  | '\n' :: rest => [] :: textLines rest
  | '\r' :: '\n' :: rest => [] :: textLines rest
  | c :: rest =>
    match textLines rest with
    | [] => [[c]]
    | line :: more => (c :: line) :: more

/-- The parts of a string between the occurrences of `sep`. -/
def splitAt (sep : Char) (text : String) : List String :=
  (pieces sep text.toList).map String.ofList

/-- Whether two lists of names are in order: at the first place where they differ the smaller
name decides, and a list comes before those that continue it. -/
def namesLe : List String → List String → Bool
  | [], _ => true
  | _ :: _, [] => false
  | a :: as, b :: bs => if a = b then namesLe as bs else decide (a < b)

/-- Every text has at least one piece. -/
theorem pieces_ne_nil (sep : Char) (text : List Char) : pieces sep text ≠ [] := by
  cases text with
  | nil => simp [pieces]
  | cons c rest =>
    unfold pieces
    split
    · simp
    · split <;> simp

end PreferenceInjector
