/-
# FilterQuery.Settings.Access -- which attributes a filter may use

Two lists for each entity. A whitelist, once there is one, admits only its own attributes; an
empty one admits none. A blacklist rejects its attributes, whatever the whitelist says. Both grow
until they are cleared.
-/

import FilterQuery.Error
import FilterQuery.Table

namespace FilterQuery

/-- The access lists of all entities: the admitted attributes of those that have a whitelist, and
the rejected ones of those that have a blacklist. -/
structure AccessLists where
  whitelists : Table String (List String) := .empty
  blacklists : Table String (List String) := .empty
  deriving Repr

namespace AccessLists

/-- A list with more attributes on it. -/
def extend (lists : Table String (List String)) (entity : String) (names : List String) :
    Table String (List String) :=
  lists.alter entity fun old => old.getD [] ++ names

/-- Admits attributes of an entity, besides those admitted before. -/
def whitelist (a : AccessLists) (entity : String) (names : List String) : AccessLists :=
  { a with whitelists := extend a.whitelists entity names }

/-- Rejects attributes of an entity. -/
def blacklist (a : AccessLists) (entity : String) (names : List String) : AccessLists :=
  { a with blacklists := extend a.blacklists entity names }

/-- Takes away the whitelist of an entity. -/
def clearWhitelist (a : AccessLists) (entity : String) : AccessLists :=
  { a with whitelists := a.whitelists.erase entity }

/-- Takes away the blacklist of an entity. -/
def clearBlacklist (a : AccessLists) (entity : String) : AccessLists :=
  { a with blacklists := a.blacklists.erase entity }

/-- Whether the attribute of an entity may be used. -/
def allows (a : AccessLists) (entity name : String) : Bool :=
  let admitted := match a.whitelists.get? entity with
    | some names => names.contains name
    | none => true
  let rejected := match a.blacklists.get? entity with
    | some names => names.contains name
    | none => false
  admitted && !rejected

/-- Fails unless the attribute of an entity may be used. -/
def check (a : AccessLists) (entity name : String) : Except Failure Unit :=
  if a.allows entity name then .ok () else .error (.accessDenied entity name)

end AccessLists

end FilterQuery
