import KeyedRelations.Store.Duration

/-!
# Configuration

What a storage can be set up with, and the defaults.  Sizes that make no sense at
zero are taken as one.
-/

namespace KeyedRelations

/-- How queries are carried out. -/
structure ExecutorConfig where
  /-- How many records a round of a scan is to examine. -/
  pageSize : Nat := 100
  /-- Whether an entity whose structure word is unknown is an error. -/
  strict : Bool := false
  /-- Whether the subjects of a query are read side by side. -/
  parallel : Bool := false
  deriving DecidableEq, Repr

instance : Inhabited ExecutorConfig := ⟨{}⟩

namespace ExecutorConfig

/-- The configuration with a page size. -/
def withPageSize (c : ExecutorConfig) (pageSize : Nat) : ExecutorConfig :=
  { c with pageSize := max pageSize 1 }

/-- The configuration with strict structure words or not. -/
def withStrict (c : ExecutorConfig) (strict : Bool) : ExecutorConfig := { c with strict }

/-- The configuration with subjects read side by side or not. -/
def withParallel (c : ExecutorConfig) (parallel : Bool) : ExecutorConfig := { c with parallel }

end ExecutorConfig

/-- How a pool hands out store handles. -/
structure PoolConfig where
  /-- How many handles may be out at once. -/
  maxHandles : Nat
  /-- How long to wait for a handle. -/
  acquireTimeout : Duration
  deriving DecidableEq, Repr

namespace PoolConfig

/-- How many handles may be out at once, unless something else is said. -/
def defaultMaxHandles : Nat := 8

/-- How long to wait for a handle, unless something else is said. -/
def defaultAcquireTimeout : Duration := .ofSeconds 5

/-- The configuration for a number of handles. -/
def ofMaxHandles (n : Nat) : PoolConfig := ⟨max n 1, defaultAcquireTimeout⟩

/-- The configuration of pools for which nothing else is said. -/
def default : PoolConfig := ofMaxHandles defaultMaxHandles

instance : Inhabited PoolConfig := ⟨default⟩

/-- The configuration with another number of handles. -/
def withMaxHandles (c : PoolConfig) (n : Nat) : PoolConfig := { c with maxHandles := max n 1 }

/-- The configuration with another time to wait. -/
def withAcquireTimeout (c : PoolConfig) (d : Duration) : PoolConfig :=
  { c with acquireTimeout := d }

end PoolConfig

/-- Where and how a store is kept. -/
structure StoreConfig where
  path : String := "./kvql_data"
  /-- The size of the page cache in bytes. -/
  cacheCapacity : Nat := 268435456
  /-- How often changes are written out, in milliseconds; if absent, after every one. -/
  flushEveryMillis : Option Nat := some 1000
  compression : Bool := true
  /-- Whether the store goes away when it is closed. -/
  temporary : Bool := false
  deriving DecidableEq, Repr

instance : Inhabited StoreConfig := ⟨{}⟩

namespace StoreConfig

/-- The configuration of a store in a directory. -/
def ofPath (path : String) : StoreConfig := { path }

/-- The configuration of a temporary store. -/
def ofTemporary : StoreConfig := { path := "", temporary := true }

/-- The configuration with another size of the page cache. -/
def withCacheCapacity (c : StoreConfig) (bytes : Nat) : StoreConfig :=
  { c with cacheCapacity := bytes }

/-- The configuration with another interval of writing out. -/
def withFlushEveryMillis (c : StoreConfig) (millis : Option Nat) : StoreConfig :=
  { c with flushEveryMillis := millis }

/-- The configuration with compression or not. -/
def withCompression (c : StoreConfig) (compression : Bool) : StoreConfig := { c with compression }

end StoreConfig

end KeyedRelations
