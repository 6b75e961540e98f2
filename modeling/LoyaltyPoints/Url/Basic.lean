/-! # Url: its parts and its text -/

namespace LoyaltyPoints

/-- A url in its normal form. -/
structure Url where
  scheme : List Char
  /-- The host; a url without one has a path only. -/
  host : Option (List Char)
  /-- The port, if it is not the one that the scheme stands for. -/
  port : Option Nat
  path : List Char
  query : Option (List Char)
  fragment : Option (List Char)
deriving DecidableEq, Repr

/-- Why a text is no url. -/
inductive UrlError where
  /-- It does not begin with a scheme. -/
  | noScheme
  | emptyHost
  | badPort
  | badAddress4
  | badAddress6
  /-- The name of the host cannot be written in ASCII, or holds what no name may hold. -/
  | badName
  /-- The host holds what no host may hold. -/
  | badHost
deriving DecidableEq, Repr

/-- The text of the cause. -/
def UrlError.message : UrlError → String
  | .noScheme => "relative URL without a base"
  | .emptyHost => "empty host"
  | .badPort => "invalid port number"
  | .badAddress4 => "invalid IPv4 address"
  | .badAddress6 => "invalid IPv6 address"
  | .badName => "invalid international domain name"
  | .badHost => "invalid domain character"

namespace Url

/-- A part behind its mark, if it is there. -/
def marked (mark : Char) : Option (List Char) → List Char
  | some part => mark :: part
  | none => []

/-- Host and port. -/
def authority (u : Url) : List Char :=
  u.host.getD [] ++ marked ':' (u.port.map (Nat.toDigits 10))

/-- What is asked for from the host: path and query. -/
def target (u : Url) : List Char := u.path ++ marked '?' u.query

/-- The written form. -/
def toText (u : Url) : String :=
  let host := if u.host.isSome then '/' :: '/' :: u.authority else []
  String.ofList (u.scheme ++ ':' :: (host ++ u.target ++ marked '#' u.fragment))

end Url

end LoyaltyPoints
