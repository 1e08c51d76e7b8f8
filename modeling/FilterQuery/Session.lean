/-
# FilterQuery.Session -- compiling filters one after the other

A session keeps what successive filters share: the settings, the catalog, the attributes that
have been remembered and the leaves that have gone to the storage layer's own builder. Each
operation gives its answer and the session after it. Operations that fail leave behind what they
have learnt and built up to then.
-/

import FilterQuery.Resolve
import FilterQuery.Schema.Entity

namespace FilterQuery

/-- A running compiler whose conditions have type `C`. It lists the leaves that were handed to its
builder, in order. -/
structure Session (C : Type) where
  builder : ConditionBuilder C
  settings : Settings C := {}
  catalog : Catalog := .empty
  cache : SchemaCache := .empty
  leaves : List Leaf := []

namespace Session

variable {C : Type}

/-- The resolver of the present moment; with or without a cache. -/
def resolver (s : Session C) (cached : Bool) : Resolver C :=
  ⟨s.settings, s.catalog.describe?, cached, s.builder⟩

/-- Makes a run and keeps what it leaves behind. -/
def perform {α : Type} (s : Session C) (run : Run α) : Except Failure α × Session C :=
  let (result, trace) := (ExceptT.run run).run { cache := s.cache }
  let leaves := (trace.built.filter fun c => !c.custom).map (·.leaf)
  (result, { s with cache := trace.cache, leaves := s.leaves ++ leaves })

/-- The tree of a text. -/
def parse (s : Session C) (text : String) : Except Failure Node := s.settings.dialect.parse text

/-- The condition of a tree. -/
def resolve (s : Session C) (n : Node) (entity : String) : Except Failure C × Session C :=
  s.perform ((s.resolver s.settings.cacheEnabled).resolve n entity)

/-- The condition of a text. -/
def compile (s : Session C) (text entity : String) : Except Failure C × Session C :=
  match s.parse text with
  | .ok n => s.resolve n entity
  | .error f => (.error f, s)

/-- The path of a selector and the type at which arguments are compared with it. -/
def path (s : Session C) (entity selector : String) (cached : Bool) :
    Except Failure (List PathSegment × ValueType) × Session C :=
  s.perform ((s.resolver cached).path entity selector)

/-- Changes the settings; a change that fails leaves them as they are. -/
def change (s : Session C) (c : Settings.Change C) : Except Failure Settings.Answer × Session C :=
  match s.settings.change c with
  | .ok (answer, settings) => (.ok answer, { s with settings := settings })
  | .error f => (.error f, s)

end Session

end FilterQuery
