import StaticSite.Text.Digits
/-!
# Dates and times in TOML documents

A moment is a date, a time, or both; a date with a time may have an offset. The
seconds of a time may be left out. Months have the length that they have in
their year.
-/

namespace StaticSite.Toml.Moment

def pair? (a b : Char) : Option Nat :=
  if a.isDigit && b.isDigit then some (Text.naturalValue [a, b]) else none

def isLeapYear (year : Nat) : Bool := year % 4 == 0 && (year % 100 != 0 || year % 400 == 0)

/-- The length of a month, which is zero for a number that names none. -/
def daysIn (year month : Nat) : Nat :=
  if month = 0 ∨ 12 < month then 0
  else if month = 2 then (if isLeapYear year then 29 else 28)
  else if month = 4 ∨ month = 6 ∨ month = 9 ∨ month = 11 then 30
  else 31

def afterDate? : List Char → Option (List Char)
  | y₁ :: y₂ :: y₃ :: y₄ :: '-' :: m₁ :: m₂ :: '-' :: d₁ :: d₂ :: cs => do
    let century ← pair? y₁ y₂
    let year ← pair? y₃ y₄
    let month ← pair? m₁ m₂
    let day ← pair? d₁ d₂
    if 1 ≤ day ∧ day ≤ daysIn (100 * century + year) month then some cs else none
  | _ => none

def afterFraction? : List Char → Option (List Char)
  | '.' :: c :: cs => if c.isDigit then some (cs.dropWhile Char.isDigit) else none
  | ['.'] => none
  | cs => some cs

/-- The text after the seconds of a time, if it starts with them. -/
def afterSeconds? : List Char → Option (List Char)
  | ':' :: s₁ :: s₂ :: cs => do
    let second ← pair? s₁ s₂
    if second ≤ 60 then afterFraction? cs else none
  | ':' :: _ => none
  | cs => some cs

def afterTime? : List Char → Option (List Char)
  | h₁ :: h₂ :: ':' :: m₁ :: m₂ :: cs => do
    let hour ← pair? h₁ h₂
    let minute ← pair? m₁ m₂
    if hour ≤ 23 ∧ minute ≤ 59 then afterSeconds? cs else none
  | _ => none

def isOffset : List Char → Bool
  | [] => true
  | ['Z'] => true
  | ['z'] => true
  | [sign, h₁, h₂, ':', m₁, m₂] =>
    (sign == '+' || sign == '-') && ((pair? h₁ h₂).map (decide <| · ≤ 23)).getD false
      && ((pair? m₁ m₂).map (decide <| · ≤ 59)).getD false
  | _ => false

def isSeparator (c : Char) : Bool := c == 'T' || c == 't' || c == ' '

def isMoment (cs : List Char) : Bool :=
  match afterDate? cs with
  | some [] => true
  | some (c :: rest) => isSeparator c && ((afterTime? rest).map isOffset).getD false
  | none => ((afterTime? cs).map List.isEmpty).getD false

end StaticSite.Toml.Moment
