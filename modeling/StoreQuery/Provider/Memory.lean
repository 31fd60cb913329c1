import StoreQuery.Provider.Registry
import StoreQuery.Store.Memory

/-! # Providers of stores in memory

Three providers: one whose stores support everything, one whose stores take their name from the
settings and support what is usual, and one that always fails.
-/

namespace StoreQuery.Memory

def databaseFactory : Factory (Database Records) :=
  fun _ => .ok (database "memory" .all)

def bucketFactory : Factory (Bucket Entries) :=
  fun _ => .ok (bucket "recording" .all)

/-- A store with the name that the settings give; its capacity must not be zero. -/
def namedFactory {α : Type} (make : String → Capabilities → α) : Factory α :=
  fun s =>
    if s.uint64? "capacity" = some 0 then .error "capacity must not be zero"
    else .ok (make ((s.text? "name").getD "unnamed") .usual)

def brokenFactory {α : Type} (message : String) : Factory α :=
  fun _ => .error message

def registry : Registry (Database Records) (Bucket Entries) :=
  Registry.empty
    |>.insertDatabase "memory" databaseFactory
    |>.insertDatabase "named" (namedFactory database)
    |>.insertBucket "memory" bucketFactory

def installation : Installation (Database Records) (Bucket Entries) := ⟨some registry⟩

end StoreQuery.Memory
