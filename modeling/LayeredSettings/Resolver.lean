import LayeredSettings.Resolution
import LayeredSettings.FileStore
import LayeredSettings.Diagnostic
import LayeredSettings.Update.Registry

/-!
Resolvers: a live document that may be replaced, the facts it is read with, and the callbacks that
hear of replacements.

The live document is kept twice, for readers and for subscribers. A publication sets both.
-/

namespace LayeredSettings

/-- The file that a document comes from. -/
structure Source where
  path : String
  format : Format
  deriving DecidableEq

def Source.load (s : Source) (files : FileStore) : Except Fault Document := do
  let text ← (files.readText s.path).mapError (.load s.path)
  Document.parse s.format text

/-- A document with the number of documents that were published before it. -/
structure Publication where
  number : Nat
  document : Document

/-- Identifies a watch by the order in which watches came about. -/
abbrev WatchId := Nat

/-- The watch that was started last and not stopped since, which may have ended by itself. -/
inductive WatchState
  | idle
  | watching (watch : WatchId)
  | stopped
  deriving DecidableEq

structure Resolver where
  source : Option Source
  facts : Facts
  live : Document
  latest : Publication
  registry : Registry := {}
  watch : WatchState := .idle

namespace Resolver

def create (source : Option Source) (facts : Facts) (d : Document) : Resolver :=
  { source, facts, live := d, latest := ⟨0, d⟩ }

def publish (r : Resolver) (d : Document) : Resolver :=
  { r with live := d, latest := ⟨r.latest.number + 1, d⟩ }

def version (r : Resolver) : Int64 := r.live.version

def resolve? (r : Resolver) (path : List String) : Option Value := r.live.resolve? r.facts path

/-- What a resolver looks like to someone who inspects it. -/
def description (r : Resolver) : String :=
  let path := r.source.elim "None" fun source => "Some(" ++ Text.quote source.path ++ ")"
  "ProcessSettings \x7b path: " ++ path ++ ", version: " ++ Diagnostic.decimal r.version ++
    ", context: TargetingContext \x7b facts: " ++ r.facts.text ++ " \x7d, callbacks: " ++
    r.registry.description ++ " \x7d"

end Resolver

/-- A subscriber, with the number of the publication it has seen. -/
structure Receiver where
  resolver : ResolverId
  seen : Nat

end LayeredSettings
