namespace Tabularium

/-- Folds the letters A to Z to lower case and leaves every other character. -/
def asciiLower (s : String) : String :=
  String.ofList (s.toList.map Char.toLower)

/-- Folds the letters a to z to upper case and leaves every other character. -/
def asciiUpper (s : String) : String :=
  String.ofList (s.toList.map Char.toUpper)

/-- Equality up to the case of the letters A to Z. -/
def sameIgnoringCase (s t : String) : Bool :=
  asciiLower s == asciiLower t

end Tabularium
