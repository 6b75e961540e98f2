import LoyaltyPoints.Text.Blank

/-! # Oracle: the address it is reached at

    The configured address loses its blanks at the ends and its slashes at the end, and is taken for
    an `http` address unless it names its scheme. -/

namespace LoyaltyPoints.Oracle

/-- What stands between a scheme and what it applies to. -/
def schemeMark : List Char := [':', '/', '/']

/-- Whether a text contains another one. -/
def contains (part : List Char) : List Char → Bool
  | [] => part.isEmpty
  | c :: cs => part.isPrefixOf (c :: cs) || contains part cs

/-- The scheme of an address that names none. -/
def defaultScheme : List Char := ['h', 't', 't', 'p', ':', '/', '/']

/-- The base of all addresses, from the configured text. -/
def normalizeAddress (raw : List Char) : List Char :=
  let body := Text.dropEndWhile (· = '/') (Text.trim raw)
  if contains schemeMark body then body else defaultScheme ++ body

/-- The base of all addresses, from the configured text. -/
def baseAddress (raw : String) : String := String.ofList (normalizeAddress raw.toList)

/-- The address at which an order is asked for. -/
def orderAddress (base number : String) : String := base ++ "/api/orders/" ++ number

end LoyaltyPoints.Oracle
