import ModuleRig.Cache.Index
import ModuleRig.Host

/-!
# The resolution cache

The index in memory and the file it is kept in. A file that cannot be read, or that holds no index,
counts as an empty one. Saving replaces the file as a whole.
-/

namespace ModuleRig

structure Cache where
  /-- None for a cache that is never saved. -/
  file? : Option Path
  index : CacheIndex

namespace Cache

def fileName : String := "resolutions.json"

def inMemory : Cache := ⟨none, .empty⟩

def readIndex (files : FileTree) (file : Path) : CacheIndex :=
  match files.readText file with
  | .ok text => (CacheIndex.read? text).getD .empty
  | .error _ => .empty

def load (files : FileTree) (dir : Path) : Cache :=
  let file := dir.child fileName
  ⟨some file, readIndex files file⟩

def get? (cache : Cache) (key : String) : Option CacheEntry :=
  cache.index.get? key

def insert (cache : Cache) (key : String) (entry : CacheEntry) : Cache :=
  { cache with index := cache.index.insert key entry }

def size (cache : Cache) : Nat :=
  cache.index.size

/-- The operations that save the index in a file. Nothing waits for the text to be safe. -/
def saveOperations (index : CacheIndex) (file : Path) : List FileTree.Operation :=
  FileTree.replacement (file.parent?.getD ⟨""⟩) (file.withExtension "json.part") file
    (Text.Utf8.ofText index.text) false

/-- Saves the index, if the cache has a file. -/
def saveOn (disk : FileTree.Disk) (cache : Cache) : Action SystemError Unit :=
  match cache.file? with
  | none => return ()
  | some file => Action.performOn disk (saveOperations cache.index file)

def save (cache : Cache) : Action SystemError Unit :=
  cache.saveOn .reliable

end Cache

end ModuleRig
