import ShaderComposer.Chain.Printer
import ShaderComposer.Chain.Validation
import ShaderComposer.Document.Reader

/-!
# Reading chains

A chain is read member by member in the order of its text.  Members without a
meaning are passed over and a member must not come twice; what is missing is
noticed at the end of the object.  The type of an effect may stand anywhere among
its members, so these are collected first and looked at afterwards.  Chain,
metadata and effects may also be written as arrays of their fields.
-/

namespace ShaderComposer

open Scan

/-! ## Values that were collected -/

namespace Document

def readFloat32 (document : Document) : Except Mismatch Float32 :=
  match document with
  | .number n => .ok n.toFloat32
  | other => .error (.invalidType other.found "f32")

def readWord (document : Document) : Except Mismatch Nat :=
  match document with
  | .number (.natural n) =>
    if n < UInt32.size then .ok n else .error (.invalidValue document.found "u32")
  | .number (.negative _) => .error (.invalidValue document.found "u32")
  | other => .error (.invalidType other.found "u32")

def readBool (document : Document) : Except Mismatch Bool :=
  match document with
  | .bool value => .ok value
  | other => .error (.invalidType other.found "a boolean")

def readNullable (read : Document → Except Mismatch α) (document : Document) :
    Except Mismatch (Option α) :=
  match document with
  | .null => .ok none
  | other => (read other).map some

end Document

namespace ChainEffect

inductive Kind where
  | blur
  | adjust (adjustment : Adjustment)
deriving DecidableEq

def kinds : List (String × Kind) :=
  [("BlurReference", .blur), ("Brightness", .adjust .brightness),
    ("Contrast", .adjust .contrast), ("Saturation", .adjust .saturation)]

/-- The settings of an effect as far as they are known. -/
structure Settings where
  radius : Option Nat := none
  linearFiltering : Option Bool := none
  threshold : Option (Option Float32) := none
  amount : Option Float32 := none

def once (name : String) (known : Option α) (value : Except Mismatch α) :
    Except Mismatch (Option α) :=
  if known.isSome then .error (.duplicateField name) else value.map some

/-- Takes in one member; those without a meaning for the kind change nothing. -/
def Settings.add (kind : Kind) (settings : Settings) (member : String × Document) :
    Except Mismatch Settings := do
  let (key, value) := member
  match kind with
  | .blur =>
    if key = "blurRadius" then
      return { settings with radius := ← once key settings.radius value.readWord }
    else if key = "linearFiltering" then
      return { settings with linearFiltering := ← once key settings.linearFiltering value.readBool }
    else if key = "luminanceThreshold" then
      return {
        settings with
        threshold := ← once key settings.threshold (value.readNullable Document.readFloat32) }
    else return settings
  | .adjust adjustment =>
    if key = adjustment.fieldName then
      return { settings with amount := ← once key settings.amount value.readFloat32 }
    else return settings

/-- The effect of a kind with its settings, of which some must be there. -/
def ofSettings (kind : Kind) (settings : Settings) : Except Mismatch ChainEffect :=
  match kind with
  | .blur =>
    match settings.radius with
    | none => .error (.missingField "blurRadius")
    | some radius =>
      .ok (.blur radius (settings.linearFiltering.getD false) (settings.threshold.getD none))
  | .adjust adjustment =>
    match settings.amount with
    | none => .error (.missingField adjustment.fieldName)
    | some amount => .ok (.adjust adjustment amount)

def ofMembers (kind : Kind) (members : List (String × Document)) :
    Except Mismatch ChainEffect := do
  ofSettings kind (← members.foldlM (Settings.add kind) {})

/-- The names of a kind's settings, in the order in which an array lists them. -/
def Kind.fields : Kind → List String
  | blur => ["blurRadius", "linearFiltering", "luminanceThreshold"]
  | adjust adjustment => [adjustment.fieldName]

def Kind.name : Kind → String
  | blur => "BlurReference"
  | adjust adjustment => adjustment.name

def elements : Nat → String
  | 1 => "1 element"
  | n => toString n ++ " elements"

/-- The effect whose settings are listed in order; the trailing ones that need
not be given may be missing. -/
def ofItems (kind : Kind) (items : List Document) : Except Mismatch ChainEffect := do
  let settings ← (kind.fields.zip items).foldlM (Settings.add kind) {}
  let count := kind.fields.length
  if items.isEmpty then
    .error
      (.invalidLength 0 ("struct variant EffectNode::" ++ kind.name ++ " with " ++ elements count))
  else if count < items.length then
    .error (.invalidLength items.length (elements count ++ " in sequence"))
  else ofSettings kind settings

end ChainEffect

namespace Chain.Reader

/-! ## Effects -/

def lift : Except Mismatch α → Scan α
  | .ok value => return value
  | .error cause => mismatch cause

def kind : Scan ChainEffect.Kind := do
  variant ChainEffect.kinds (← Scan.text "variant identifier")

/-- A member of an effect: its type, or something to look at afterwards. -/
def effectMember (room : Nat)
    (known : Option ChainEffect.Kind × List (String × Document)) (key : String) :
    Scan (Option ChainEffect.Kind × List (String × Document)) := do
  if key = "type" then
    if known.1.isSome then mismatch (.duplicateField "type")
    else
      colon
      return (some (← kind), known.2)
  else
    colon
    return (known.1, known.2 ++ [(key, ← value room)])

def effectObject (room : Nat) : Scan ChainEffect := do
  match ← objectOf room (none, []) effectMember with
  | (none, _) => mismatch (.missingField "type")
  | (some kind, members) => lift (ChainEffect.ofMembers kind members)

def effectArray (room : Nat) : Scan ChainEffect := do
  let room ← openLevel room
  match ← item? true kind with
  | none => mismatch (.missingField "type")
  | some kind =>
    let rest ← items (value room) (← fuel) false
    closeArray
    lift (ChainEffect.ofItems kind rest)

def effect (room : Nat) : Scan ChainEffect := do
  let token ← peekToken
  if token = some '[' then effectArray room
  else if token = some '\x7b' then effectObject room
  else refuse "internally tagged enum EffectNode"

def effects (room : Nat) : Scan (List ChainEffect) := do
  if (← peekToken) = some '[' then arrayOf room effect else refuse "a sequence"

/-! ## Dialects -/

def dialects : List (String × Dialect) :=
  Dialect.all.map fun dialect => (dialect.name, dialect)

/-- A dialect written as an object whose only member has its name and no value. -/
def dialectObject (room : Nat) : Scan Dialect := do
  discard (openLevel room)
  let dialect ← variant dialects (← keyLiteral .value)
  colon
  unit
  match ← peekToken with
  | none => fail .truncated
  | some c =>
    if c = '\x7d' then
      advance
      return dialect
    else fail .malformed

def dialect (room : Nat) : Scan Dialect := do
  match ← peekToken with
  | none => fail .truncated
  | some c =>
    if c = '"' then variant dialects (← textLiteral .value)
    else if c = '\x7b' then dialectObject room
    else fail .malformed

/-! ## Metadata -/

def string : Scan String := Scan.text "a string"

/-- The value of a member that must not be known yet. -/
def once (name : String) (known : Option α) (scan : Scan α) : Scan (Option α) := do
  if known.isSome then mismatch (.duplicateField name)
  else
    colon
    return some (← scan)

/-- The members of metadata as far as they are known. -/
structure MetadataFields where
  name : Option String := none
  created : Option (Option String) := none
  modified : Option (Option String) := none

def metadataMember (_room : Nat) (known : MetadataFields) (key : String) :
    Scan MetadataFields := do
  if key = "name" then return { known with name := ← once key known.name string }
  else if key = "created" then
    return { known with created := ← once key known.created (nullable string) }
  else if key = "modified" then
    return { known with modified := ← once key known.modified (nullable string) }
  else
    colon
    skip
    return known

def metadataObject (room : Nat) : Scan Metadata := do
  let known ← objectOf room {} metadataMember
  match known.name with
  | none => mismatch (.missingField "name")
  | some name => return ⟨name, known.created.getD none, known.modified.getD none⟩

/-- The item of an array in which all fields are listed. -/
def field (position : Nat) (expected : String) (scan : Scan α) : Scan α := do
  match ← item? (position = 0) scan with
  | none => mismatch (.invalidLength position expected)
  | some value => return value

def metadataArray (room : Nat) : Scan Metadata := do
  discard (openLevel room)
  let expected := "struct Metadata with 3 elements"
  let name ← field 0 expected string
  let created ← field 1 expected (nullable string)
  let modified ← field 2 expected (nullable string)
  closeArray
  return ⟨name, created, modified⟩

def metadata (room : Nat) : Scan Metadata := do
  let token ← peekToken
  if token = some '[' then metadataArray room
  else if token = some '\x7b' then metadataObject room
  else refuse "struct Metadata"

/-! ## Chains -/

/-- The members of a chain as far as they are known. -/
structure Fields where
  version : Option String := none
  metadata : Option (Option Metadata) := none
  dialect : Option Dialect := none
  stem : Option String := none
  effects : Option (List ChainEffect) := none

/-- The chain with the fields that are given; the version has to be. -/
def Fields.chain? (fields : Fields) : Option Chain :=
  fields.version.map fun version =>
    { version := version
      metadata := fields.metadata.getD none
      dialect := fields.dialect.getD .gl
      stem := fields.stem.getD defaultStem
      effects := fields.effects.getD [] }

def chainMember (room : Nat) (known : Fields) (key : String) : Scan Fields := do
  if key = "version" then return { known with version := ← once key known.version string }
  else if key = "metadata" then
    return { known with metadata := ← once key known.metadata (nullable (metadata room)) }
  else if key = "dialect" then
    return { known with dialect := ← once key known.dialect (dialect room) }
  else if key = "manglePrefix" then return { known with stem := ← once key known.stem string }
  else if key = "effects" then
    return { known with effects := ← once key known.effects (effects room) }
  else
    colon
    skip
    return known

def chainObject (room : Nat) : Scan Chain := do
  match (← objectOf room {} chainMember).chain? with
  | none => mismatch (.missingField "version")
  | some chain => return chain

def chainArray (room : Nat) : Scan Chain := do
  let room ← openLevel room
  let version ← field 0 "struct ChainDSL with 5 elements" string
  let metadata ← item? false (nullable (metadata room))
  let dialect ← item? false (dialect room)
  let stem ← item? false string
  let effects ← item? false (effects room)
  closeArray
  return {
    version := version
    metadata := metadata.getD none
    dialect := dialect.getD .gl
    stem := stem.getD defaultStem
    effects := effects.getD [] }

def chain (room : Nat) : Scan Chain := do
  let token ← peekToken
  if token = some '[' then chainArray room
  else if token = some '\x7b' then chainObject room
  else refuse "struct ChainDSL"

end Chain.Reader

def Dialect.read (text : String) : Except ReadError Dialect :=
  run (do let dialect ← Chain.Reader.dialect maxRoom; finish; return dialect) text

def Chain.read (text : String) : Except ReadError Chain :=
  run (do let chain ← Chain.Reader.chain maxRoom; finish; return chain) text

inductive ChainError where
  | unreadable (error : ReadError)
  | invalid (fault : ChainFault)
deriving DecidableEq

def Chain.parse (text : String) : Except ChainError Chain :=
  match Chain.read text with
  | .error error => .error (.unreadable error)
  | .ok chain =>
    match chain.fault? with
    | some fault => .error (.invalid fault)
    | none => .ok chain

end ShaderComposer
