/-
A store in memory: the last catalog and the last manifests saved under the
stored name of each application.
-/
import ReleaseSchema.Failure
import ReleaseSchema.Release.Manifest
import ReleaseSchema.Schema.Catalog

namespace ReleaseSchema

namespace Store

def nameEnding : String := "-database"

/-- The stored name of an application: its name with the ending, which is not added twice. -/
def storedName (app : String) : String :=
  if nameEnding.toList.isSuffixOf app.toList then app else app ++ nameEnding

end Store

structure MemoryStore where
  catalogs : SortedMap String Catalog := .empty
  manifests : SortedMap String (List Manifest) := .empty

namespace MemoryStore

open Store

def saveCatalog (app : String) (catalog : Catalog) (s : MemoryStore) : MemoryStore :=
  { s with catalogs := s.catalogs.insert (storedName app) catalog }

def loadCatalog (app : String) (s : MemoryStore) : Except Failure Catalog :=
  match s.catalogs.get? (storedName app) with
  | some catalog => .ok catalog
  | none => .error (.notStored (storedName app))

def saveManifests (app : String) (manifests : List Manifest) (s : MemoryStore) : MemoryStore :=
  { s with manifests := s.manifests.insert (storedName app) manifests }

def loadManifests (app : String) (s : MemoryStore) : Except Failure (List Manifest) :=
  match s.manifests.get? (storedName app) with
  | some manifests => .ok manifests
  | none => .error (.notStored (storedName app))

/-- How many catalogs are stored. -/
def size (s : MemoryStore) : Nat := s.catalogs.size

end MemoryStore

end ReleaseSchema
