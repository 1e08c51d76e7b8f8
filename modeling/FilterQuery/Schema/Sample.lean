/-
# FilterQuery.Schema.Sample -- a family of people and projects

Four entity types with attributes of many types, collections of value objects, and references
that lead back to their owners. Examples and sessions use them when no other schema is given.
-/

import FilterQuery.Schema.Family

namespace FilterQuery

namespace Sample

/-- The states of a person. -/
def status : EnumType := ⟨"Status", ["Active", "Pending", "CLOSED"]⟩

/-- A country. -/
def country : EntityType where
  key := "Country"
  schema := .ofAttributes "Country" [.basic "code" .string, .basic "name" .string]
  dependencies := []

/-- A postal address. -/
def address : EntityType where
  key := "Address"
  schema := .ofAttributes "Address"
    [.basic "street" .string, .basic "city" .string, .basic "zipCode" .string,
     .association "country" "Country" false]
  dependencies := ["Country"]

/-- A project and its members. -/
def project : EntityType where
  key := "Project"
  schema := .ofAttributes "Project"
    [.basic "title" .string, .basic "budget" (.float .f64), .association "members" "Person" true]
  dependencies := ["Person"]

/-- A person. -/
def person : EntityType where
  key := "Person"
  schema := .ofAttributes "Person"
    [.basic "id" .uuid, .basic "name" .string, .basic "age" (.int .i32), .basic "email" .string,
     .basic "active" .bool, .basic "initial" .char, .basic "score" (.int .u64),
     .basic "status" (.enum status), .basic "birth_date" .date,
     .basic "created_at" .offsetDateTime, .basic "salary" (.custom "Money"),
     .basic "password" .string, .embedded "address" "Address",
     .elementCollection "previous_addresses" (.entity "Address"),
     .association "friends" "Person" true, .association "projects" "Project" true,
     .elementCollection "tags" .string]
  dependencies := ["Address", "Address", "Person", "Project"]

/-- All of them. -/
def family : EntityFamily := [person, address, country, project]

/-- The catalog of a person and all that a person refers to. -/
def catalog : Catalog := family.register .empty "Person"

end Sample

end FilterQuery
