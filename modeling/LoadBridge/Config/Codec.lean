import LoadBridge.Config.Basic
import LoadBridge.Json.Decode
import LoadBridge.Toml.Document

/-!
# Configuration — Written form

A configuration is a TOML document of four tables.  Keys of several words are written with hyphens
or with underscores, not both.
-/

namespace LoadBridge

open Json (Decoder)
open Json.Fields (optional either)

/-- The two spellings of a key of several words. -/
def keySpellings (key : String) : List String :=
  [key, .ofList (key.toList.map fun c => if c = '-' then '_' else c)]

/-- A key of several words, with a default. -/
def setting (fs : Json.Fields) (key : String) (decode : Decoder α) (default : α) : Option α :=
  either fs (keySpellings key) decode default

/-- Texts by name, in the order of the names.  A later text replaces an earlier one. -/
def insertByName (entries : List (String × String)) (name text : String) : List (String × String) :=
  match entries with
  | [] => [(name, text)]
  | (n, t) :: rest =>
    if name < n then (name, text) :: (n, t) :: rest
    else if name = n then (name, text) :: rest
    else (n, t) :: insertByName rest name text

/-- An object whose fields are all strings. -/
def decodeTexts : Decoder (List (String × String))
  | .obj fields =>
    fields.foldlM (fun entries f => (Json.asString f.2).map (insertByName entries f.1)) []
  | _ => none

def LoadSection.decode (surplus : Bool) : Decoder LoadSection := fun j => do
  let fs ← Json.asFields ["classes", "functions", "ditch", "parent-classes", "inherited-members"]
    surplus j
  pure
    { classes := ← optional fs "classes" (Json.asList Json.asString) []
      functions := ← optional fs "functions" (Json.asList Json.asString) []
      ditch := ← optional fs "ditch" (Json.asList Json.asString) []
      parentClasses := ← setting fs "parent-classes" Json.asBool false
      inheritedMembers := ← setting fs "inherited-members" Json.asBool false }

def LoadSection.encode (s : LoadSection) : Json :=
  .obj [("classes", .strs s.classes), ("functions", .strs s.functions), ("ditch", .strs s.ditch),
    ("parent-classes", .bool s.parentClasses), ("inherited-members", .bool s.inheritedMembers)]

def NamingSection.decode (surplus : Bool) : Decoder NamingSection := fun j => do
  let fs ← Json.asFields ["interface-prefix", "delegate-prefix", "code-suffix", "factory-prefix"]
    surplus j
  let default : NamingSection := {}
  pure
    { interfacePrefix := ← setting fs "interface-prefix" Json.asString default.interfacePrefix
      delegatePrefix := ← setting fs "delegate-prefix" Json.asString default.delegatePrefix
      codeSuffix := ← setting fs "code-suffix" Json.asString default.codeSuffix
      factoryPrefix := ← setting fs "factory-prefix" Json.asString default.factoryPrefix }

def NamingSection.encode (s : NamingSection) : Json :=
  .obj [("interface-prefix", .str s.interfacePrefix), ("delegate-prefix", .str s.delegatePrefix),
    ("code-suffix", .str s.codeSuffix), ("factory-prefix", .str s.factoryPrefix)]

def OutputSection.decode (surplus : Bool) : Decoder OutputSection := fun j => do
  let fs ← Json.asFields ["indent", "header-extension", "source-extension", "backend-namespace",
    "wrapper-return-factories"] surplus j
  let default : OutputSection := {}
  pure
    { indent := ← optional fs "indent" (Json.asNat UInt64.size) default.indent
      headerExtension := ← setting fs "header-extension" Json.asString default.headerExtension
      sourceExtension := ← setting fs "source-extension" Json.asString default.sourceExtension
      backendNamespace := ← setting fs "backend-namespace" Json.asString default.backendNamespace
      wrapperReturnFactories := ← setting fs "wrapper-return-factories" Json.asBool false }

def OutputSection.encode (s : OutputSection) : Json :=
  .obj [("indent", .nat s.indent), ("header-extension", .str s.headerExtension),
    ("source-extension", .str s.sourceExtension), ("backend-namespace", .str s.backendNamespace),
    ("wrapper-return-factories", .bool s.wrapperReturnFactories)]

/-- The affixes alone, all of which must be given. -/
def NameAffixes.decode : Decoder NameAffixes := fun j => do
  let fs ← Json.asFields ["interface_prefix", "delegate_prefix", "code_suffix"] false j
  pure
    { interfacePrefix := ← Json.Fields.required fs "interface_prefix" Json.asString
      delegatePrefix := ← Json.Fields.required fs "delegate_prefix" Json.asString
      codeSuffix := ← Json.Fields.required fs "code_suffix" Json.asString }

def NameAffixes.encode (a : NameAffixes) : Json :=
  .obj [("interface_prefix", .str a.interfacePrefix), ("delegate_prefix", .str a.delegatePrefix),
    ("code_suffix", .str a.codeSuffix)]

namespace Config

/-- Reads a configuration without validating it.  `surplus` says what to do with a table given as
too long an array. -/
def decode (surplus : Bool) : Decoder Config := fun j => do
  let fs ← Json.asFields ["load", "naming", "output", "known-classes"] surplus j
  pure
    { load := ← optional fs "load" (LoadSection.decode surplus) {}
      naming := ← optional fs "naming" (NamingSection.decode surplus) {}
      output := ← optional fs "output" (OutputSection.decode surplus) {}
      knownClasses := ← setting fs "known-classes" decodeTexts [] }

def encode (c : Config) : Json :=
  .obj [("load", c.load.encode), ("naming", c.naming.encode), ("output", c.output.encode),
    ("known-classes", .obj (c.knownClasses.map fun k => (k.1, .str k.2)))]

/-- Reads and validates the text of a TOML document. -/
def ofText (text : String) : Except ConfigError Config :=
  match (Toml.parse? text).bind (decode true) with
  | none => .error .unreadable
  | some c => c.validate.map fun _ => c

end Config

end LoadBridge
