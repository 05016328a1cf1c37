import Parley.Text.Quoted

/-! # Configurations

A parser serves a dialogue domain description and may carry the name of a domain,
with which it stamps the plan items that raise questions. It remembers what it has
read unless told not to.
-/

namespace Parley

structure Config where
  /-- The dialogue domain description that the parser serves. -/
  dddName : Text := []
  /-- The domain that plan items are stamped with. -/
  domainName : Option Text := none
  /-- What was read is remembered. -/
  cacheEnabled : Bool := true
deriving DecidableEq

namespace Config

def ofDdd (dddName : Text) : Config :=
  { dddName := dddName }

def ofDomain (dddName domainName : Text) : Config :=
  { dddName := dddName, domainName := some domainName }

def uncached : Config :=
  { cacheEnabled := false }

def describe (c : Config) : Text :=
  let domain : Text :=
    match c.domainName with
    | none => "None"
    | some name => .concat ["Some(", name.quoted, ")"]
  let cache : Text := if c.cacheEnabled then "true" else "false"
  .concat ["ParserConfig \x7b ddd_name: ", c.dddName.quoted, ", domain_name: ", domain,
    ", cache_enabled: ", cache, " \x7d"]

end Config

end Parley
