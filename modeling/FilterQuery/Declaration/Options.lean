/-
# FilterQuery.Declaration.Options -- options of declarations

Declarations, their fields and their variants carry options. An option is a flag or sets a key to
a text, and each place admits options of its own. Options are read in the order in which they are
written, so the last one that sets a key wins and the first one that does not fit is reported.
-/

namespace FilterQuery

/-- An option as it is written: a name, and the text that is set to, if any. -/
structure WrittenOption where
  name : String
  value : Option String := none
  deriving Repr, DecidableEq

/-- Where options stand. -/
inductive OptionPlace where
  | record
  | field
  | enumeration
  | variant
  deriving Repr, DecidableEq

/-- The word for a place in messages. -/
def OptionPlace.word : OptionPlace → String
  | record => "struct"
  | field => "field"
  | enumeration => "enum"
  | variant => "variant"

/-- Why nothing is generated for a declaration. A value is missing where a key is set to no text,
and unwanted where a flag is set to one; options conflict that say different things about the type
of their field. -/
inductive DeclarationFailure where
  | unknownOption (place : OptionPlace)
  | missingValue
  | unwantedValue
  | conflictingOptions
  | unnamedType
  | unnamedFields (record : String)
  | variantData (enumeration variant : String)
  deriving Repr, DecidableEq

/-- The message of a failure. -/
def DeclarationFailure.message : DeclarationFailure → String
  | unknownOption place => "Unknown rsql " ++ place.word ++ " attribute"
  | missingValue => "expected `=`"
  | unwantedValue => "expected `,`"
  | conflictingOptions =>
    "embedded, association, enumeration and value_type are mutually exclusive"
  | unnamedType =>
    "Cannot infer the value type of this field, use #[rsql(value_type = \"...\")]"
  | unnamedFields record =>
    s!"Failed to derive RsqlEntity for struct '{record}': only structs with named fields " ++
      "are supported"
  | variantData enumeration variant =>
    s!"Failed to derive RsqlEnum for enum '{enumeration}': variant '{variant}' carries data, " ++
      "only unit variants are supported"

/-- What an option does to the settings that it belongs to: a flag stands alone, a key is set to a
text. -/
inductive OptionEffect (α : Type) where
  | flag (set : α → α)
  | key (set : String → α → α)

/-- The settings after an option. -/
def WrittenOption.apply {α : Type} (o : WrittenOption) (place : OptionPlace)
    (admitted : String → Option (OptionEffect α)) (a : α) : Except DeclarationFailure α :=
  match admitted o.name, o.value with
  | none, _ => .error (.unknownOption place)
  | some (.flag set), none => .ok (set a)
  | some (.flag _), some _ => .error .unwantedValue
  | some (.key set), some v => .ok (set v a)
  | some (.key _), none => .error .missingValue

/-- The settings after some options, in their order. -/
def readOptions {α : Type} (place : OptionPlace) (admitted : String → Option (OptionEffect α))
    (a : α) (options : List WrittenOption) : Except DeclarationFailure α :=
  options.foldlM (fun a o => o.apply place admitted a) a

end FilterQuery
